import AfuBench.Bench.Basic
import AfuBench.Proofs.Requests

namespace AfuBench

inductive Console.Output where
  | text (s : String)
  | line (s : String)
  deriving DecidableEq, Repr

namespace Console

def put (c : Console) : Output → Console
  | .text s => c.print s
  | .line s => c.printLine s

def putAll (c : Console) (out : List Output) : Console :=
  out.foldl put c

theorem putAll_append (c : Console) (before after : List Output) :
    c.putAll (before ++ after) = (c.putAll before).putAll after :=
  List.foldl_append

end Console

theorem run_tryCatch {σ ε α : Type} (p : ExceptT ε (StateM σ) α)
    (handler : ε → ExceptT ε (StateM σ) α) (s : σ) :
    (tryCatch p handler).run.run s =
      match p.run.run s with
      | (.ok a, t) => (.ok a, t)
      | (.error e, t) => (handler e).run.run t := by
  change (match (p s).1 with
    | .ok a => (pure (.ok a) : StateM σ (Except ε α))
    | .error e => handler e) (p s).2 = match p s with
      | (.ok a, t) => (.ok a, t)
      | (.error e, t) => (handler e).run.run t
  rcases p s with ⟨r, t⟩
  cases r <;> rfl

namespace Bench

variable {σ α β : Type} [Bus σ] [Afu.Host σ]

/-- On every device in front of the simulated device `a`, the program makes these requests, none of
which is refused, prints this text, and then answers `r`. -/
def Performs (p : Bench σ α) (a : Afu) (r : Except BenchError α) (requests : List Bus.Request)
    (out : List Console.Output) : Prop :=
  Bus.Accepts a requests ∧ ∀ s : Session σ, Afu.Host.afu s.device = a →
    p.run.run s = (r, ⟨Bus.serve s.device requests, s.console.putAll out⟩)

variable {p : Bench σ α} {k : α → Bench σ β} {a : Afu} {x : α} {r : Except BenchError β}
  {requests more : List Bus.Request} {out rest : List Console.Output}

theorem performs_pure (x : α) (a : Afu) : Performs (σ := σ) (pure x) a (.ok x) [] [] :=
  ⟨trivial, fun _ _ => rfl⟩

theorem performs_throw (e : BenchError) (a : Afu) :
    Performs (σ := σ) (α := α) (throw e) a (.error e) [] [] :=
  ⟨trivial, fun _ _ => rfl⟩

theorem Performs.bind (hp : Performs p a (.ok x) requests out)
    (hk : Performs (k x) (Bus.serve a requests) r more rest) :
    Performs (p >>= k) a r (requests ++ more) (out ++ rest) := by
  refine ⟨Bus.accepts_append hp.1 hk.1, ?_⟩
  intro s hs
  have hview : Afu.Host.afu (Bus.serve s.device requests) = Bus.serve a requests := by
    rw [Afu.Host.afu_serve, hs]
  rw [run_bind, hp.2 s hs]
  simp only
  rw [hk.2 _ hview, Bus.serve_append, Console.putAll_append]

theorem Performs.bind_pure (hp : Performs p a (.ok x) requests out) (f : α → β) :
    Performs (p >>= fun y => pure (f y)) a (.ok (f x)) requests out := by
  have hbind := hp.bind (k := fun y => pure (f y)) (performs_pure (f x) _)
  rw [List.append_nil, List.append_nil] at hbind
  exact hbind

theorem Performs.bind_error {e : BenchError} (hp : Performs p a (.error e) requests out) :
    Performs (p >>= k) a (.error e) requests out := by
  refine ⟨hp.1, ?_⟩
  intro s hs
  rw [run_bind, hp.2 s hs]

theorem performs_print (text : String) (a : Afu) :
    Performs (σ := σ) (print text) a (.ok ()) [] [.text text] :=
  ⟨trivial, fun _ _ => rfl⟩

theorem performs_printLine (text : String) (a : Afu) :
    Performs (σ := σ) (printLine text) a (.ok ()) [] [.line text] :=
  ⟨trivial, fun _ _ => rfl⟩

theorem performs_ofData {d : Except DataError α} (hd : d = .ok x) (a : Afu) :
    Performs (σ := σ) (ofData d) a (.ok x) [] [] := by
  rw [hd]
  exact performs_pure x a

theorem performs_read (index : Nat) (a : Afu) :
    Performs (σ := σ) (read index) a (.ok (a.readWord index).1) [.read (8 * index)] [] := by
  refine ⟨trivial, ?_⟩
  intro s hs
  rw [read, run_access, Afu.Host.read_answer, hs, Afu.read_word]
  rfl

theorem performs_write {index : Nat} {value : UInt64} {a : Afu}
    (hok : (a.writeWord index value).1 = .ok ()) :
    Performs (σ := σ) (write index value) a (.ok ()) [.write (8 * index) value] [] := by
  have hanswer : (a.write (8 * index) value).1 = .ok () := by
    rw [Afu.write_word, hok]
  refine ⟨⟨hanswer, trivial⟩, ?_⟩
  intro s hs
  rw [write, run_access, Afu.Host.write_answer, hs, hanswer]
  rfl

theorem Performs.tryCatch_ok {handler : BenchError → Bench σ α}
    (hp : Performs p a (.ok x) requests out) :
    Performs (tryCatch p handler) a (.ok x) requests out := by
  refine ⟨hp.1, ?_⟩
  intro s hs
  rw [run_tryCatch, hp.2 s hs]

theorem Performs.tryCatch_error {e : BenchError} {handler : BenchError → Bench σ α}
    {r : Except BenchError α} (hp : Performs p a (.error e) requests out)
    (hhandler : Performs (handler e) (Bus.serve a requests) r more rest) :
    Performs (tryCatch p handler) a r (requests ++ more) (out ++ rest) := by
  refine ⟨Bus.accepts_append hp.1 hhandler.1, ?_⟩
  intro s hs
  have hview : Afu.Host.afu (Bus.serve s.device requests) = Bus.serve a requests := by
    rw [Afu.Host.afu_serve, hs]
  rw [run_tryCatch, hp.2 s hs]
  simp only
  rw [hhandler.2 _ hview, Bus.serve_append, Console.putAll_append]

def Completes (p : Bench σ α) (a : Afu) (post : α → Afu → Prop) : Prop :=
  ∃ x requests out, Performs p a (.ok x) requests out ∧ post x (Bus.serve a requests)

theorem Performs.completes {post : α → Afu → Prop} (hp : Performs p a (.ok x) requests out)
    (hpost : post x (Bus.serve a requests)) : Completes p a post :=
  ⟨x, requests, out, hp, hpost⟩

theorem completes_pure {post : α → Afu → Prop} (hpost : post x a) :
    Completes (σ := σ) (pure x) a post :=
  (performs_pure x a).completes hpost

theorem Completes.bind {post : α → Afu → Prop} {last : β → Afu → Prop}
    (hp : Completes p a post) (hk : ∀ x b, post x b → Completes (k x) b last) :
    Completes (p >>= k) a last := by
  obtain ⟨x, requests, out, hp, hpost⟩ := hp
  obtain ⟨y, more, rest, hk, hlast⟩ := hk x _ hpost
  refine ⟨y, requests ++ more, out ++ rest, hp.bind hk, ?_⟩
  rw [Bus.serve_append]
  exact hlast

section

variable {γ : Type}

theorem completes_foldlM (inv : Afu → Prop) {f : β → γ → Bench σ β} {xs : List γ}
    (hstep : ∀ x ∈ xs, ∀ y b, inv b → Completes (f y x) b fun _ c => inv c) (y : β) (ha : inv a) :
    Completes (xs.foldlM f y) a fun _ b => inv b := by
  induction xs generalizing y a with
  | nil => exact completes_pure ha
  | cons x xs ih =>
    rw [List.foldlM_cons]
    refine (hstep x List.mem_cons_self y a ha).bind ?_
    intro z b hb
    exact ih (fun w hw => hstep w (List.mem_cons_of_mem x hw)) z hb

theorem completes_mapM (inv : Afu → Prop) {f : γ → Bench σ β} {xs : List γ}
    (hstep : ∀ x ∈ xs, ∀ b, inv b → Completes (f x) b fun _ c => inv c) (ha : inv a) :
    Completes (xs.mapM f) a fun _ b => inv b := by
  induction xs generalizing a with
  | nil => exact completes_pure ha
  | cons x xs ih =>
    rw [List.mapM_cons]
    refine (hstep x List.mem_cons_self a ha).bind ?_
    intro _ b hb
    refine (ih (fun w hw => hstep w (List.mem_cons_of_mem x hw)) hb).bind ?_
    intro _ c hc
    exact completes_pure hc

end

theorem Performs.exec {r : Except BenchError α} (h : Performs p a r requests out) {d : σ}
    (hd : Afu.Host.afu d = a) :
    p.exec d = (r, ⟨Bus.serve d requests, Console.empty.putAll out⟩) :=
  h.2 ⟨d, .empty⟩ hd

end Bench

end AfuBench
