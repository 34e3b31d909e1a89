import AfuBench.Bus.Recorded
import AfuBench.Proofs.RegisterAccess

namespace AfuBench

inductive Bus.Request where
  | read (offset : Nat)
  | write (offset : Nat) (value : UInt64)
  deriving DecidableEq, Repr

namespace Bus

variable {σ : Type} [Bus σ]

def Request.on (d : σ) : Request → σ
  | .read offset => (Bus.read offset d).2
  | .write offset value => (Bus.write offset value d).2

def serve (d : σ) (requests : List Request) : σ :=
  requests.foldl Request.on d

theorem serve_append (d : σ) (before after : List Request) :
    serve d (before ++ after) = serve (serve d before) after :=
  List.foldl_append

def Request.operation : Request → Afu.Operation
  | .read offset => .read offset
  | .write offset value => .write offset value

theorem serve_eq_run (a : Afu) (requests : List Request) :
    serve a requests = a.run (requests.map Request.operation) := by
  induction requests generalizing a with
  | nil => rfl
  | cons request requests ih =>
    cases request with
    | read offset => exact ih _
    | write offset value => exact ih _

def repeated (n : Nat) (requests : List Request) : List Request :=
  (List.replicate n requests).flatten

theorem repeated_succ (n : Nat) (requests : List Request) :
    repeated (n + 1) requests = requests ++ repeated n requests := by
  rw [repeated, List.replicate_succ, List.flatten_cons, repeated]

def Accepts (d : σ) : List Request → Prop
  | [] => True
  | .read offset :: rest => Accepts (Bus.read offset d).2 rest
  | .write offset value :: rest =>
    (Bus.write offset value d).1 = .ok () ∧ Accepts (Bus.write offset value d).2 rest

theorem accepts_append {d : σ} {before after : List Request} (hbefore : Accepts d before)
    (hafter : Accepts (serve d before) after) : Accepts d (before ++ after) := by
  induction before generalizing d with
  | nil => exact hafter
  | cons request before ih =>
    cases request with
    | read offset => exact ih hbefore hafter
    | write offset value => exact ⟨hbefore.1, ih hbefore.2 hafter⟩

end Bus

/-- A device that passes its accesses on to a simulated one. -/
class Afu.Host (σ : Type) [Bus σ] where
  afu : σ → Afu
  read_answer : ∀ (offset : Nat) (d : σ), (Bus.read offset d).1 = ((afu d).read offset).1
  read_device : ∀ (offset : Nat) (d : σ), afu (Bus.read offset d).2 = ((afu d).read offset).2
  write_answer : ∀ (offset : Nat) (value : UInt64) (d : σ),
    (Bus.write offset value d).1 = ((afu d).write offset value).1
  write_device : ∀ (offset : Nat) (value : UInt64) (d : σ),
    afu (Bus.write offset value d).2 = ((afu d).write offset value).2

namespace Afu.Host

instance : Afu.Host Afu where
  afu := id
  read_answer _ _ := rfl
  read_device _ _ := rfl
  write_answer _ _ _ := rfl
  write_device _ _ _ := rfl

instance : Afu.Host (Recorded Afu) where
  afu := Recorded.device
  read_answer _ _ := rfl
  read_device _ _ := rfl
  write_answer _ _ _ := rfl
  write_device _ _ _ := rfl

theorem afu_serve {σ : Type} [Bus σ] [Afu.Host σ] (d : σ) (requests : List Bus.Request) :
    afu (Bus.serve d requests) = Bus.serve (afu d) requests := by
  induction requests generalizing d with
  | nil => rfl
  | cons request requests ih =>
    refine (ih _).trans ?_
    cases request with
    | read offset => exact congrArg (Bus.serve · requests) (read_device offset d)
    | write offset value => exact congrArg (Bus.serve · requests) (write_device offset value d)

end Afu.Host

namespace Recorded

def written : List Bus.Request → List (Nat × UInt64) :=
  List.filterMap fun
    | .read _ => none
    | .write offset value => some (offset, value)

theorem writes_serve {r : Recorded Afu} {requests : List Bus.Request}
    (h : Bus.Accepts r.device requests) :
    (Bus.serve r requests).writes = r.writes ++ written requests := by
  induction requests generalizing r with
  | nil => exact (List.append_nil _).symm
  | cons request requests ih =>
    cases request with
    | read offset =>
      refine (ih (r := (Bus.read offset r).2) h).trans ?_
      have hskip : (Bus.read offset r).2.writes = r.writes := by
        simp [writes, Bus.read, Access.accepted?]
      rw [hskip]
      rfl
    | write offset value =>
      refine (ih (r := (Bus.write offset value r).2) h.2).trans ?_
      have hadd : (Bus.write offset value r).2.writes = r.writes ++ [(offset, value)] := by
        have hok : (Bus.write offset value r.device).1 = .ok () := h.1
        simp only [writes, Bus.write, Array.toList_push, List.filterMap_append]
        rw [show (Afu.write offset value r.device).1 = .ok () from hok]
        rfl
      rw [hadd, List.append_assoc]
      rfl

end Recorded

end AfuBench
