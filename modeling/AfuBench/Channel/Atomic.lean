import AfuBench.TestData.Error

namespace AfuBench.Atomic

inductive Width where
  | bits32
  | bits64
  deriving DecidableEq, Repr

namespace Width

def ofBits? : Nat → Option Width
  | 32 => some .bits32
  | 64 => some .bits64
  | _ => none

def bits : Width → Nat
  | .bits32 => 32
  | .bits64 => 64

def mask : Width → UInt64
  | .bits32 => 0xffffffff
  | .bits64 => 0xffffffffffffffff

def perWord : Width → Nat
  | .bits32 => 2
  | .bits64 => 1

end Width

def bufferWords : Nat := 512

def Width.entries (w : Width) : Nat :=
  w.perWord * bufferWords

inductive Operation where
  | fetchAdd
  | swap
  | compareSwap
  deriving DecidableEq, Repr

def operation (i : Nat) : Operation :=
  match i % 3 with
  | 0 => .fetchAdd
  | 1 => .swap
  | _ => .compareSwap

def tag (i : Nat) : UInt64 :=
  UInt64.ofNat (0x100 + i) &&& 0x1ff

def matchValue : UInt64 := 0x12345

def initialValue (w : Width) (i : Nat) : UInt64 :=
  if operation i = .compareSwap ∧ i % 2 = 1 then tag i else w.mask

def updated (w : Width) (i : Nat) (old : UInt64) : UInt64 :=
  match operation i with
  | .fetchAdd => (old + tag i) &&& w.mask
  | .swap => tag i
  | .compareSwap => if old = tag i then matchValue else old

def Width.wordOf (w : Width) (i : Nat) : Nat :=
  i / w.perWord

def Width.shift (w : Width) (i : Nat) : UInt64 :=
  UInt64.ofNat (i % w.perWord * 32)

def entry (w : Width) (buf : List UInt64) (i : Nat) : UInt64 :=
  buf.getD (w.wordOf i) 0 >>> w.shift i &&& w.mask

def putEntry (w : Width) (i : Nat) (value word : UInt64) : UInt64 :=
  word &&& ~~~(w.mask <<< w.shift i) ||| (value &&& w.mask) <<< w.shift i

def setEntry (w : Width) (buf : List UInt64) (i : Nat) (value : UInt64) : List UInt64 :=
  buf.modify (w.wordOf i) (putEntry w i value)

def inBounds (w : Width) (buf : List UInt64) (i : Nat) : Except OutOfBounds Unit :=
  if w.wordOf i < buf.length then .ok () else .error ⟨buf.length, w.wordOf i⟩

def entry? (w : Width) (buf : List UInt64) (i : Nat) : Except OutOfBounds UInt64 :=
  (inBounds w buf i).map fun _ => entry w buf i

def setEntry? (w : Width) (buf : List UInt64) (i : Nat) (value : UInt64) :
    Except OutOfBounds (List UInt64) :=
  (inBounds w buf i).map fun _ => setEntry w buf i value

def packWord (w : Width) (value : Nat → UInt64) (i : Nat) : UInt64 :=
  match w with
  | .bits64 => value i
  | .bits32 => putEntry .bits32 (i + 1) (value (i + 1)) (value i &&& Width.mask .bits32)

def build (w : Width) (value : Nat → UInt64) : List UInt64 :=
  (List.range bufferWords).map fun j => packWord w value (w.perWord * j)

def expectedValue (w : Width) (updates i : Nat) : UInt64 :=
  if i < updates then updated w i (initialValue w i) else initialValue w i

def returnedValue (w : Width) (updates i : Nat) : UInt64 :=
  if i < updates then initialValue w i else 0

def initialBuffer (w : Width) : List UInt64 :=
  build w (initialValue w)

def requireUpdates (w : Width) (updates : Nat) : Except DataError Unit :=
  if w.entries < updates then .error (.updateCount updates w.entries) else .ok ()

def expectedBuffer (w : Width) (updates : Nat) : Except DataError (List UInt64) :=
  (requireUpdates w updates).map fun _ => build w (expectedValue w updates)

def returnedBuffer (w : Width) (updates : Nat) : Except DataError (List UInt64) :=
  (requireUpdates w updates).map fun _ => build w (returnedValue w updates)

inductive Side where
  | atomic
  | writeBack
  deriving DecidableEq, Repr

structure Mismatch where
  side : Side
  index : Nat
  actual : UInt64
  expected : UInt64
  deriving DecidableEq, Repr

def requireFull (buf : List UInt64) : Except DataError Unit :=
  if buf.length < bufferWords then .error (.shortBuffer bufferWords buf.length) else .ok ()

def compareEntry (w : Width) (side : Side) (buf : List UInt64) (i : Nat) (expected : UInt64) :
    List Mismatch :=
  if entry w buf i = expected then [] else [⟨side, i, entry w buf i, expected⟩]

def check (w : Width) (atomic writeBack : List UInt64) (updates : Nat) :
    Except DataError (List Mismatch) := do
  requireUpdates w updates
  requireFull atomic
  requireFull writeBack
  return (List.range w.entries).flatMap fun i =>
    compareEntry w .atomic atomic i (expectedValue w updates i) ++
      compareEntry w .writeBack writeBack i (returnedValue w updates i)

def serve (w : Width) (bufs : List UInt64 × List UInt64) (i : Nat) : List UInt64 × List UInt64 :=
  let old := entry w bufs.1 i
  (setEntry w bufs.1 i (updated w i old), setEntry w bufs.2 i old)

def serve? (w : Width) (bufs : List UInt64 × List UInt64) (i : Nat) :
    Except OutOfBounds (List UInt64 × List UInt64) := do
  let old ← entry? w bufs.1 i
  let writeBack ← setEntry? w bufs.2 i old
  let atomic ← setEntry? w bufs.1 i (updated w i old)
  return (atomic, writeBack)

end AfuBench.Atomic
