import AfuBench.Blocks
import AfuBench.TestData.Error
/-!
Dumps: data vectors one after the other as little-endian 64-bit words, without a header.
-/

namespace AfuBench.Dump

def wordBytes (w : UInt64) : List UInt8 :=
  (List.range 8).map fun i => (w >>> UInt64.ofNat (8 * i)).toUInt8

def bytesWord (bs : List UInt8) : UInt64 :=
  bs.foldr (fun b w => w <<< 8 ||| b.toUInt64) 0

def encodeWords (ws : List UInt64) : List UInt8 :=
  ws.flatMap wordBytes

def encode (vectors : List (List UInt64)) : List UInt8 :=
  encodeWords vectors.flatten

def decodeWords (bs : List UInt8) : List UInt64 :=
  (Blocks.whole 8 bs).map bytesWord

def decode (words : Nat) (bs : List UInt8) : List (List UInt64) :=
  Blocks.whole words (decodeWords bs)

theorem length_wordBytes (w : UInt64) : (wordBytes w).length = 8 := by
  simp [wordBytes]

end AfuBench.Dump
