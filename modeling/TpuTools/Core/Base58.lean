import Mathlib.Data.Nat.Digits.Defs

/-!
# Base58 text of byte strings

The Bitcoin alphabet, most significant digit first; every leading zero byte is written
as one `1`. `decode` is its reader: `none` on a character outside the alphabet.
-/
namespace TpuTools.Base58

def alphabet : List Char := "123456789ABCDEFGHJKLMNPQRSTUVWXYZabcdefghijkmnopqrstuvwxyz".toList

/-- The value of a big-endian byte string. -/
def bytesToNat (bs : List UInt8) : Nat := bs.foldl (fun n b => 256 * n + b.toNat) 0

def digitChar (d : Nat) : Char := alphabet.getD d '1'

def encode (bs : List UInt8) : String :=
  String.ofList ((bs.takeWhile (· = 0)).map (fun _ => '1') ++
    ((Nat.digits 58 (bytesToNat bs)).reverse.map digitChar))

/-- The value of a base58 text, `none` on a foreign character. -/
def textToNat (cs : List Char) : Option Nat :=
  cs.foldlM (fun n c => (alphabet.idxOf? c).map (58 * n + ·)) 0

def decode (s : String) : Option (List UInt8) :=
  (textToNat s.toList).map fun n =>
    (s.toList.takeWhile (· = '1')).map (fun _ => (0 : UInt8)) ++
      (Nat.digits 256 n).reverse.map UInt8.ofNat

end TpuTools.Base58
