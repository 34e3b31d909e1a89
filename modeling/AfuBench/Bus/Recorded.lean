import AfuBench.Bus.Basic

namespace AfuBench

inductive Access where
  | read (offset : Nat) (answer : Except AccessError UInt64)
  | write (offset : Nat) (value : UInt64) (answer : Except AccessError Unit)

def Access.accepted? : Access → Option (Nat × UInt64)
  | .write offset value (.ok ()) => some (offset, value)
  | _ => none

structure Recorded (σ : Type) where
  device : σ
  accesses : Array Access

namespace Recorded

variable {σ : Type}

def start (device : σ) : Recorded σ :=
  ⟨device, #[]⟩

def writes (r : Recorded σ) : List (Nat × UInt64) :=
  r.accesses.toList.filterMap Access.accepted?

instance [Bus σ] : Bus (Recorded σ) where
  read offset r :=
    let (answer, device) := Bus.read offset r.device
    (answer, ⟨device, r.accesses.push (.read offset answer)⟩)
  write offset value r :=
    let (answer, device) := Bus.write offset value r.device
    (answer, ⟨device, r.accesses.push (.write offset value answer)⟩)

end Recorded

end AfuBench
