import AfuBench.Bench.Basic
import AfuBench.Files.Tools
import AfuBench.Proofs.DumpCodec

namespace AfuBench.Tool

variable {α ε : Type}

theorem run_get (w : Workspace) : (get : Tool Workspace).run.run w = (.ok w, w) := rfl

theorem run_printLine (text : String) (w : Workspace) :
    (printLine text).run.run w = (.ok (), { w with console := w.console.printLine text }) := rfl

theorem run_orFail (fail : ε → ToolError) (r : Except ε α) (w : Workspace) :
    (orFail fail r).run.run w = (r.mapError fail, w) := by
  cases r <;> rfl

theorem run_orFail_ok (fail : ε → ToolError) (a : α) (w : Workspace) :
    (orFail fail (.ok a)).run.run w = (.ok a, w) := rfl

theorem run_orFail_error (fail : ε → ToolError) (e : ε) (w : Workspace) :
    (orFail fail (.error e : Except ε α)).run.run w = (.error (fail e), w) := rfl

def loaded (files : FileStore) (path : String) (bytes : Nat) :
    Except ToolError (List (List UInt64)) :=
  match wordCount bytes, files.read path with
  | .error e, _ => .error (.data e)
  | .ok _, .error e => .error (dumpError path e)
  | .ok words, .ok content =>
    if content.length % bytes = 0 then .ok (Dump.decode words content)
    else .error (.ragged content.length bytes)

theorem run_loadDump (path : String) (bytes : Nat) (w : Workspace) :
    (loadDump path bytes).run.run w = (loaded w.files path bytes, w) := by
  rw [loadDump, run_bind, run_orFail, loaded]
  cases wordCount bytes with
  | error e => rfl
  | ok words =>
    change (get >>= _ : Tool (List (List UInt64))).run.run w = _
    rw [run_bind, run_get]
    change (orFail (dumpError path) (w.files.read path) >>= _ : Tool _).run.run w = _
    cases w.files.read path with
    | error e => rfl
    | ok content =>
      rw [run_bind, run_orFail_ok]
      by_cases hlen : content.length % bytes = 0
      · simp only [hlen, ne_eq, not_true_eq_false, if_false, if_true]
        rfl
      · simp only [hlen, ne_eq, not_false_eq_true, if_false, if_true]
        rfl

theorem loaded_eq_ok_iff {files : FileStore} {path : String} {bytes : Nat}
    {vectors : List (List UInt64)} :
    loaded files path bytes = .ok vectors ↔
      ∃ words content, wordCount bytes = .ok words ∧ files.read path = .ok content ∧
        content.length % bytes = 0 ∧ vectors = Dump.decode words content := by
  unfold loaded
  cases wordCount bytes with
  | error e => simp
  | ok words =>
    cases files.read path with
    | error e => simp
    | ok content =>
      by_cases hlen : content.length % bytes = 0
      · simp [hlen, eq_comm]
      · simp [hlen]

end AfuBench.Tool
