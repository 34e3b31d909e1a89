import AfuBench.Proofs.EngineStart
import AfuBench.Proofs.RegisterAccess
import AfuBench.Proofs.VectorSequence
/-!
The memory of an engine as a history of its finite starts: each line is what the latest start that
reached it has written, and the hash register is what the latest reading start has found.
-/

namespace AfuBench

/-- A start that comes to an end by itself, with the registers and the switch in force at it. -/
structure FiniteStart where
  reading : Burst
  writing : Burst
  seed : UInt64
  corrupt : Bool
  deriving DecidableEq, Repr

namespace FiniteStart

def flipBit : List UInt64 → List UInt64
  | [] => []
  | w :: ws => (w ^^^ 1) :: ws

def line (words : Nat) (s : FiniteStart) (i : Nat) : List UInt64 :=
  if s.corrupt ∧ i = 0 then flipBit (generated s.seed words i) else generated s.seed words i

def lineAfter (words : Nat) (past : List FiniteStart) (i : Nat) : List UInt64 :=
  match past.find? fun s => i < s.writing.lines with
  | some s => s.line words i
  | none => List.replicate words 0

/-- The hash register after the starts of a history, the latest first. -/
def hashAfter (words : Nat) : List FiniteStart → UInt64
  | [] => 0
  | s :: past =>
    if s.reading.enabled then
      streamHash words ((List.range s.reading.lines).map (lineAfter words (s :: past)))
    else hashAfter words past

theorem lineAfter_cons (words : Nat) (s : FiniteStart) (past : List FiniteStart) (i : Nat) :
    lineAfter words (s :: past) i =
      if i < s.writing.lines then s.line words i else lineAfter words past i := by
  by_cases hi : i < s.writing.lines
  · simp [lineAfter, hi]
  · simp [lineAfter, hi]

end FiniteStart

namespace Slot

def finiteStart? (s : Slot) : Event → Option FiniteStart
  | .enable =>
    if s.running ∨ s.engine.unlimited then none
    else some ⟨s.engine.reading, s.engine.writing, s.engine.seed, s.engine.corrupt⟩
  | _ => none

structure Holds (words : Nat) (past : List FiniteStart) (s : Slot) : Prop where
  line : ∀ i, s.engine.memory.getD i (List.replicate words 0) = FiniteStart.lineAfter words past i
  hash : s.engine.readHash = FiniteStart.hashAfter words past

theorem holds_idle (words : Nat) : Holds words [] idle where
  line i := by simp [idle, Engine.idle, FiniteStart.lineAfter]
  hash := rfl

theorem Holds.of_eq {words : Nat} {past : List FiniteStart} {s t : Slot} (h : Holds words past s)
    (hmemory : t.engine.memory = s.engine.memory)
    (hhash : t.engine.readHash = s.engine.readHash) : Holds words past t where
  line i := by
    rw [hmemory]
    exact h.line i
  hash := by
    rw [hhash]
    exact h.hash

end Slot

namespace Engine

theorem firstLines_eq_map (words count : Nat) (e : Engine) :
    e.firstLines words count =
      (List.range count).map fun i => e.memory.getD i (List.replicate words 0) := by
  apply List.ext_getElem?
  intro i
  by_cases hi : i < count
  · rw [List.getElem?_map, List.getElem?_range hi, Option.map_some, firstLines]
    by_cases hheld : i < e.memory.length
    · rw [List.getElem?_append_left (by simp; omega), List.getElem?_take_of_lt hi,
        List.getD_eq_getElem?_getD, List.getElem?_eq_getElem hheld, Option.getD_some]
    · have hpad : i - min count e.memory.length < count - e.memory.length := by omega
      rw [List.getElem?_append_right (by simp; omega), List.getElem?_replicate, List.length_take,
        if_pos hpad, List.getD_eq_getElem?_getD, List.getElem?_eq_none (by omega),
        Option.getD_none]
  · rw [List.getElem?_eq_none (by simp [firstLines]; omega), List.getElem?_eq_none (by simp; omega)]

theorem getElem?_flipFirst (lines : List (List UInt64)) (i : Nat) :
    (flipFirst lines)[i]? = if i = 0 then lines[i]?.map FiniteStart.flipBit else lines[i]? := by
  cases lines with
  | nil => simp [flipFirst]
  | cons line lines =>
    cases line with
    | nil => cases i <;> simp [flipFirst, FiniteStart.flipBit]
    | cons w ws => cases i <;> simp [flipFirst, FiniteStart.flipBit]

theorem getElem?_writtenLines (words : Nat) (e : Engine) {i : Nat} (hi : i < e.writing.lines) :
    (e.writtenLines words)[i]? =
      some (FiniteStart.line words ⟨e.reading, e.writing, e.seed, e.corrupt⟩ i) := by
  rw [writtenLines, FiniteStart.line]
  by_cases hcorrupt : e.corrupt = true
  · simp only [hcorrupt, if_true, true_and]
    rw [getElem?_flipFirst, getElem?_vectors e.seed words hi]
    by_cases hzero : i = 0
    · rw [if_pos hzero, if_pos hzero, Option.map_some]
    · rw [if_neg hzero, if_neg hzero]
  · rw [if_neg hcorrupt, if_neg fun h => hcorrupt h.1]
    exact getElem?_vectors e.seed words hi

theorem length_writtenLines (words : Nat) (e : Engine) :
    (e.writtenLines words).length = e.writing.lines := by
  have hflip : ∀ lines, (flipFirst lines).length = lines.length := by
    intro lines
    cases lines with
    | nil => rfl
    | cons line lines => cases line <;> rfl
  rw [writtenLines]
  split
  · rw [hflip, length_vectors]
  · rw [length_vectors]

theorem getD_writtenMemory (words : Nat) (e : Engine) (i : Nat) :
    (e.writtenMemory words).getD i (List.replicate words 0) =
      if i < e.writing.lines then
        FiniteStart.line words ⟨e.reading, e.writing, e.seed, e.corrupt⟩ i
      else e.memory.getD i (List.replicate words 0) := by
  rw [writtenMemory]
  by_cases hon : e.writing.enabled = true
  · rw [if_pos hon, List.getD_eq_getElem?_getD, List.getD_eq_getElem?_getD]
    by_cases hi : i < e.writing.lines
    · rw [if_pos hi, List.getElem?_append_left (by rw [length_writtenLines]; exact hi),
        getElem?_writtenLines words e hi, Option.getD_some]
    · rw [if_neg hi, List.getElem?_append_right (by rw [length_writtenLines]; omega),
        length_writtenLines, List.getElem?_drop, Nat.add_sub_cancel' (by omega)]
  · have hnone : e.writing.lines = 0 := by simp [Burst.lines, hon]
    rw [if_neg hon, hnone, if_neg (Nat.not_lt_zero i)]

theorem getD_grown (words count : Nat) (memory : List (List UInt64)) (i : Nat) :
    (grown words count memory).getD i (List.replicate words 0) =
      memory.getD i (List.replicate words 0) := by
  rw [grown, List.getD_eq_getElem?_getD, List.getD_eq_getElem?_getD]
  by_cases hi : i < memory.length
  · rw [List.getElem?_append_left hi]
  · rw [List.getElem?_append_right (by omega), List.getElem?_eq_none (l := memory) (by omega),
      List.getElem?_replicate]
    split <;> rfl

theorem getD_usedMemory (words : Nat) (e : Engine) (i : Nat) :
    (e.usedMemory words).getD i (List.replicate words 0) =
      (e.writtenMemory words).getD i (List.replicate words 0) := by
  rw [usedMemory]
  split
  · exact getD_grown words _ _ i
  · rfl

end Engine

namespace Slot

theorem holds_enable {config : AfuConfig} (hv : config.Valid) {past : List FiniteStart} {s : Slot}
    (h : s.Holds config.lineWords past) :
    (s.apply config .enable).Holds config.lineWords ((s.finiteStart? .enable).toList ++ past) := by
  rw [apply, finiteStart?]
  by_cases hrunning : s.running = true
  · rw [if_pos hrunning, if_pos (Or.inl hrunning)]
    exact h
  · rw [if_neg hrunning]
    by_cases hendless : s.engine.unlimited = true
    · rw [if_pos (Or.inr hendless), Engine.start_unlimited hendless]
      exact h.of_eq rfl rfl
    · have hwritten : ∀ i, (s.engine.writtenMemory config.lineWords).getD i
          (List.replicate config.lineWords 0) = FiniteStart.lineAfter config.lineWords
            (⟨s.engine.reading, s.engine.writing, s.engine.seed, s.engine.corrupt⟩ :: past) i := by
        intro i
        rw [Engine.getD_writtenMemory, FiniteStart.lineAfter_cons, h.line]
      rw [if_neg (by simp [hrunning, hendless]), Option.toList_some, List.singleton_append,
        Engine.start_finite hv (Bool.eq_false_iff.2 hendless)]
      refine ⟨fun i => (Engine.getD_usedMemory _ _ i).trans (hwritten i), ?_⟩
      simp only [Engine.foundHash, FiniteStart.hashAfter, Engine.firstLines_eq_map, hwritten, h.hash]

theorem holds_apply {config : AfuConfig} (hv : config.Valid) {past : List FiniteStart} {s : Slot}
    (h : s.Holds config.lineWords past) (event : Event) :
    (s.apply config event).Holds config.lineWords ((s.finiteStart? event).toList ++ past) := by
  -- only an enable can be a start: the other events keep memory, hash register and history
  cases event with
  | enable => exact holds_enable hv h
  | tick =>
    apply h.of_eq
    · simp only [apply, Engine.tick]
      split <;> rfl
    · simp only [apply, Engine.tick]
      split <;> rfl
  | disable =>
    apply h.of_eq
    · simp only [apply, Engine.stop]
      split <;> rfl
    · simp only [apply, Engine.stop]
      split <;> rfl
  | write reg value =>
    apply h.of_eq
    · simp only [apply, Engine.writeRegister]
      repeat' split
      all_goals rfl
    · simp only [apply, Engine.writeRegister]
      repeat' split
      all_goals rfl
  | stall on => exact h.of_eq rfl rfl
  | corrupt on => exact h.of_eq rfl rfl

end Slot

namespace Afu

def finiteStart? (eng : Nat) (a : Afu) : Operation → Option FiniteStart
  | .write offset value =>
    if offset = 8 * Register.enableMask ∧ Word.bit value eng ∧ ¬ Word.bit a.enabled eng then
      a.engines[eng]?.bind fun e =>
        if e.unlimited then none else some ⟨e.reading, e.writing, e.seed, e.corrupt⟩
    else none
  | _ => none

/-- The finite starts of an engine in a run, in front of those before the run; the latest first. -/
def startsOnto (eng : Nat) : Afu → List Operation → List FiniteStart → List FiniteStart
  | _, [], past => past
  | a, op :: ops, past => startsOnto eng (a.apply op) ops ((a.finiteStart? eng op).toList ++ past)

theorem event?_enableMask (engines eng : Nat) (value : UInt64) :
    Slot.event? engines eng (.write (8 * Register.enableMask) value) =
      if Word.bit value eng then some .enable else none := rfl

theorem event?_ne_enable {engines eng offset : Nat} {value : UInt64}
    (hoff : offset ≠ 8 * Register.enableMask) :
    Slot.event? engines eng (.write offset value) ≠ some .enable := by
  intro h
  rw [Slot.event?] at h
  by_cases halign : offset % 8 = 0
  · rw [if_neg (by omega)] at h
    cases htarget : Register.target engines (offset / 8) with
    | enable =>
      have hindex := Register.target_eq_enable_iff.1 htarget
      omega
    | disable =>
      simp only [htarget] at h
      split at h <;> exact absurd h (by simp)
    | shared reg => simp [htarget] at h
    | engine e reg =>
      simp only [htarget] at h
      split at h <;> exact absurd h (by simp)
    | readOnly => simp [htarget] at h
  · rw [if_pos halign] at h
    exact absurd h (by simp)

theorem finiteStart?_eq_none {s : Slot} {event : Option Slot.Event} (h : event ≠ some .enable) :
    event.bind s.finiteStart? = none := by
  rcases event with _ | event
  · rfl
  · cases event with
    | enable => exact absurd rfl h
    | _ => rfl

theorem finiteStart?_eq (a : Afu) (eng : Nat) (op : Operation) :
    a.finiteStart? eng op = (a.slot? eng).bind fun s =>
      (Slot.event? a.engines.length eng op).bind s.finiteStart? := by
  have hother : ∀ op, Slot.event? a.engines.length eng op ≠ some .enable →
      (a.slot? eng).bind (fun s =>
        (Slot.event? a.engines.length eng op).bind s.finiteStart?) = none := by
    intro op hop
    simp only [finiteStart?_eq_none hop, Option.bind_fun_none]
  cases op with
  | read offset =>
    rw [hother]
    · rfl
    · rw [Slot.event?]
      split <;> simp
  | write offset value =>
    by_cases hoff : offset = 8 * Register.enableMask
    · subst hoff
      rw [event?_enableMask, finiteStart?, slot?]
      cases a.engines[eng]? with
      | none => simp
      | some e =>
        by_cases hbit : Word.bit value eng = true
        · by_cases hrun : Word.bit a.enabled eng = true
          · simp [hbit, hrun, Slot.finiteStart?]
          · simp [hbit, hrun, Slot.finiteStart?]
        · simp [hbit]
    · rw [hother _ (event?_ne_enable hoff), finiteStart?, if_neg fun h => hoff h.1]
  | stall e on =>
    rw [hother]
    · rfl
    · rw [Slot.event?]
      split <;> simp
  | corrupt e on =>
    rw [hother]
    · rfl
    · rw [Slot.event?]
      split <;> simp

theorem holds_run {config : AfuConfig} (hv : config.Valid) (hlen : config.engines ≤ 16)
    {eng : Nat} (heng : eng < config.engines) {a : Afu} (ha : Fixed config a)
    {past : List FiniteStart} {s : Slot} (hs : a.slot? eng = some s)
    (h : s.Holds config.lineWords past) (ops : List Operation) :
    ∃ t, (a.run ops).slot? eng = some t ∧
      t.Holds config.lineWords (startsOnto eng a ops past) := by
  induction ops generalizing a past s with
  | nil => exact ⟨s, hs, h⟩
  | cons op ops ih =>
    have hstep := slot?_apply (by rw [ha.config_eq]; exact hv) (by rw [ha.length_eq]; exact hlen)
      (by rw [ha.length_eq]; exact heng) op
    have hstart := finiteStart?_eq a eng op
    rw [hs, Option.map_some] at hstep
    rw [hs, Option.bind_some] at hstart
    rw [ha.length_eq] at hstep hstart
    rw [startsOnto, hstart]
    apply ih (fixed_apply hv hlen ha op) hstep
    cases Slot.event? config.engines eng op with
    | none => exact h
    | some event =>
      rw [ha.config_eq]
      exact Slot.holds_apply hv h event

def readHash (eng : Nat) (a : Afu) : Except AccessError UInt64 :=
  (a.read (8 * Register.engineIndex eng Register.readHash)).1

theorem readHash_eq {a : Afu} {eng : Nat} {s : Slot} (hs : a.slot? eng = some s)
    (hlen : a.engines.length ≤ 16) : a.readHash eng = .ok s.engine.readHash := by
  rw [readHash, read_word, readWord_engine hs hlen (by decide)]
  rfl

theorem readHash_run {config : AfuConfig} (hv : config.Valid) {eng : Nat}
    (heng : eng < config.clamp.engines) (ops : List Operation) :
    ((new config).run ops).readHash eng =
      .ok (FiniteStart.hashAfter config.lineWords (startsOnto eng (new config) ops [])) := by
  have hfixed := fixed_run (AfuConfig.clamp_valid hv) config.clamp_engines_le (fixed_new config) ops
  obtain ⟨t, ht, hholds⟩ := holds_run (AfuConfig.clamp_valid hv) config.clamp_engines_le heng
    (fixed_new config) (slot?_new heng) (Slot.holds_idle _) ops
  rw [readHash_eq ht (by rw [hfixed.length_eq]; exact config.clamp_engines_le), hholds.hash]
  rfl

theorem startsOnto_append (eng : Nat) (a : Afu) (ops : List Operation) (op : Operation)
    (past : List FiniteStart) :
    startsOnto eng a (ops ++ [op]) past =
      ((a.run ops).finiteStart? eng op).toList ++ startsOnto eng a ops past := by
  induction ops generalizing a past with
  | nil => rfl
  | cons first ops ih => exact ih _ _

end Afu

namespace FiniteStart

theorem find?_writing {past : List FiniteStart} {w : FiniteStart} {i : Nat}
    (hw : past.find? (fun s => s.writing.enabled) = some w) (hi : i < w.writing.lines) :
    past.find? (fun s => i < s.writing.lines) = some w := by
  induction past with
  | nil => exact absurd hw (by simp)
  | cons s past ih =>
    by_cases hon : s.writing.enabled = true
    · have hfirst : s = w := by simpa [hon] using hw
      subst hfirst
      exact List.find?_cons_of_pos (decide_eq_true hi)
    · have hnone : s.writing.lines = 0 := by simp [Burst.lines, hon]
      have hlater : past.find? (fun s => s.writing.enabled) = some w := by simpa [hon] using hw
      rw [List.find?_cons_of_neg (by simp [hnone]), ih hlater]

theorem hashAfter_clean {words : Nat} {s w : FiniteStart} {before : List FiniteStart}
    (hread : s.reading.enabled = true)
    (hw : (s :: before).find? (fun s => s.writing.enabled) = some w)
    (hcover : s.reading.lines ≤ w.writing.lines) (hclean : w.corrupt = false) :
    hashAfter words (s :: before) = streamHash words (vectors w.seed words s.reading.lines) := by
  rw [hashAfter, if_pos hread, vectors_eq_map]
  congr 1
  apply List.map_congr_left
  intro i hi
  have hlt : i < w.writing.lines := Nat.lt_of_lt_of_le (List.mem_range.1 hi) hcover
  rw [lineAfter, find?_writing hw hlt]
  simp only [line, hclean, Bool.false_eq_true, false_and, if_false]

end FiniteStart

namespace Afu

/-- The hash register of an engine is the hash of what its latest reading start has found: line by
line the data of the latest start that wrote the line. Nothing else changes it, and lines that one
clean write has laid down hash to what the generator says. -/
theorem readHash_history {config : AfuConfig} (hv : config.Valid) {eng : Nat}
    (heng : eng < config.clamp.engines) (ops : List Operation) :
    ((new config).run ops).readHash eng =
        .ok (FiniteStart.hashAfter config.lineWords (startsOnto eng (new config) ops [])) ∧
      (∀ op, (∀ s, ((new config).run ops).finiteStart? eng op = some s →
          s.reading.enabled = false) →
        (((new config).run ops).apply op).readHash eng = ((new config).run ops).readHash eng) ∧
      ∀ s before w, startsOnto eng (new config) ops [] = s :: before →
        s.reading.enabled = true →
        (s :: before).find? (fun s => s.writing.enabled) = some w →
        s.reading.lines ≤ w.writing.lines → w.corrupt = false →
        ∃ hash, expectedHash config.caps.width w.seed s.reading.lines = .ok hash ∧
          ((new config).run ops).readHash eng = .ok hash := by
  refine ⟨readHash_run hv heng ops, ?_, ?_⟩
  · intro op hop
    have hnext := readHash_run hv heng (ops ++ [op])
    have hrun : (new config).run (ops ++ [op]) = ((new config).run ops).apply op :=
      List.foldl_append
    rw [startsOnto_append, hrun] at hnext
    rw [hnext, readHash_run hv heng ops]
    cases hstart : ((new config).run ops).finiteStart? eng op with
    | none => rfl
    | some s =>
      have hoff : ¬ s.reading.enabled = true := by
        rw [hop s hstart]
        exact Bool.false_ne_true
      rw [Option.toList_some, List.singleton_append, FiniteStart.hashAfter, if_neg hoff]
  · intro s before w hpast hread hw hcover hclean
    refine ⟨streamHash config.lineWords (vectors w.seed config.lineWords s.reading.lines), ?_, ?_⟩
    · rw [expectedHash_eq, AfuConfig.wordCount_of_valid hv]
      rfl
    · rw [readHash_run hv heng ops, hpast, FiniteStart.hashAfter_clean hread hw hcover hclean]

def startOnce (reading writing : Burst) (seed : UInt64) : List Operation :=
  [.write (8 * Register.engineIndex 0 Register.readTraffic) reading.toWord,
    .write (8 * Register.engineIndex 0 Register.writeTraffic) writing.toWord,
    .write (8 * Register.engineIndex 0 Register.seed) seed,
    .write (8 * Register.enableMask) 1,
    .write (8 * Register.disableMask) 1]

/-- Three lines are written, then the first of them with a corrupt bit, and four lines are read. -/
def overlaidRun : List Operation :=
  startOnce ⟨false, 0, 0⟩ ⟨true, 1, 3⟩ 5 ++ [.corrupt 0 true] ++
    startOnce ⟨false, 0, 0⟩ ⟨true, 1, 1⟩ 7 ++ [.corrupt 0 false] ++
    startOnce ⟨true, 2, 2⟩ ⟨false, 0, 0⟩ 9

theorem readHash_history_overlaid :
    AfuConfig.standard.Valid ∧ 0 < AfuConfig.standard.clamp.engines ∧
      ((new .standard).run overlaidRun).readHash 0 =
        .ok (streamHash 8 [FiniteStart.flipBit (generated 7 8 0), generated 5 8 1, generated 5 8 2,
          List.replicate 8 0]) ∧
      (((new .standard).run overlaidRun).apply (.write (8 * Register.enableMask) 2)).readHash 0 =
        ((new .standard).run overlaidRun).readHash 0 ∧
      ∃ hash, expectedHash 64 11 2 = .ok hash ∧
        ((new .standard).run
          (overlaidRun ++ startOnce ⟨true, 2, 1⟩ ⟨true, 1, 2⟩ 11)).readHash 0 = .ok hash := by
  have hv : AfuConfig.standard.Valid := by decide
  have heng : 0 < AfuConfig.standard.clamp.engines := by decide
  have hpast : startsOnto 0 (new .standard) overlaidRun [] =
      [⟨⟨true, 2, 2⟩, ⟨false, 0, 0⟩, 9, false⟩, ⟨⟨false, 0, 0⟩, ⟨true, 1, 1⟩, 7, true⟩,
        ⟨⟨false, 0, 0⟩, ⟨true, 1, 3⟩, 5, false⟩] := by decide
  have hclean : startsOnto 0 (new .standard)
      (overlaidRun ++ startOnce ⟨true, 2, 1⟩ ⟨true, 1, 2⟩ 11) [] =
        ⟨⟨true, 2, 1⟩, ⟨true, 1, 2⟩, 11, false⟩ :: startsOnto 0 (new .standard) overlaidRun [] := by
    decide
  have hlines : (List.range 4).map (FiniteStart.lineAfter 8
      [⟨⟨true, 2, 2⟩, ⟨false, 0, 0⟩, 9, false⟩, ⟨⟨false, 0, 0⟩, ⟨true, 1, 1⟩, 7, true⟩,
        ⟨⟨false, 0, 0⟩, ⟨true, 1, 3⟩, 5, false⟩]) =
      [FiniteStart.flipBit (generated 7 8 0), generated 5 8 1, generated 5 8 2,
        List.replicate 8 0] := rfl
  obtain ⟨hhash, hkept, _⟩ := readHash_history hv heng overlaidRun
  obtain ⟨_, _, hcovered⟩ := readHash_history hv heng
    (overlaidRun ++ startOnce ⟨true, 2, 1⟩ ⟨true, 1, 2⟩ 11)
  rw [hpast, FiniteStart.hashAfter, if_pos rfl] at hhash
  rw [← hlines]
  have hother : ((new .standard).run overlaidRun).finiteStart? 0
      (.write (8 * Register.enableMask) 2) = none := by decide
  have hread := hcovered _ _ ⟨⟨true, 2, 1⟩, ⟨true, 1, 2⟩, 11, false⟩ hclean rfl rfl (by decide) rfl
  refine ⟨hv, heng, hhash, hkept _ fun s hs => ?_, hread⟩
  rw [hother] at hs
  cases hs

end Afu

end AfuBench
