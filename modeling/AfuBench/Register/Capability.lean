import AfuBench.Digits
import AfuBench.Word

namespace AfuBench

structure Capabilities where
  width : Nat
  maxBurst : Nat
  natural : Bool
  avalon : Bool
  ordered : Bool
  deriving DecidableEq, Repr

namespace Capabilities

def toWord (c : Capabilities) : UInt64 :=
  (UInt64.ofNat c.width &&& 0xff) <<< 56 ||| Word.ofBit c.ordered 39 |||
    Word.ofBit c.avalon 35 ||| Word.ofBit c.natural 15 ||| (UInt64.ofNat c.maxBurst &&& 0x7fff)

def ofWord (w : UInt64) : Capabilities where
  width := (w >>> 56).toNat
  maxBurst := (w &&& 0x7fff).toNat
  natural := Word.bit w 15
  avalon := Word.bit w 35
  ordered := Word.bit w 39

def interfaceName (c : Capabilities) : String :=
  if c.avalon then "Avalon" else "CCI-P"

def describe (c : Capabilities) (eng : Nat) : List String :=
  let intro := "  Engine " ++ decimal eng
  [intro ++ " type: " ++ c.interfaceName,
    intro ++ " data byte width: " ++ decimal c.width,
    intro ++ " max burst size: " ++ decimal c.maxBurst,
    intro ++ " natural bursts: " ++ bitDigit c.natural,
    intro ++ " ordered read responses: " ++ bitDigit c.ordered]

end Capabilities

structure Activity where
  inReset : Bool
  running : Bool
  active : Bool
  waitRequest : Bool
  deriving DecidableEq, Repr

namespace Activity

def toWord (a : Activity) : UInt64 :=
  Word.ofBit a.inReset 32 ||| Word.ofBit a.running 33 ||| Word.ofBit a.active 34 |||
    Word.ofBit a.waitRequest 40

def ofWord (w : UInt64) : Activity where
  inReset := Word.bit w 32
  running := Word.bit w 33
  active := Word.bit w 34
  waitRequest := Word.bit w 40

end Activity

def statusWord (c : Capabilities) (a : Activity) : UInt64 :=
  c.toWord ||| a.toWord

end AfuBench
