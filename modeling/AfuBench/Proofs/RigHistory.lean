import AfuBench.Proofs.LaneCollapse
import AfuBench.Proofs.VectorSequence
import AfuBench.TestData.Rig
import Mathlib.Data.List.DropRight

namespace AfuBench

namespace Rig

theorem absorbPairs_eq {buckets : List UInt32} {data : List UInt64}
    (h : buckets.length = 2 * data.length) : absorbPairs buckets data = absorb buckets data := by
  induction data generalizing buckets with
  | nil =>
    obtain rfl := List.eq_nil_of_length_eq_zero h
    rfl
  | cons w data ih =>
    match buckets, h with
    | low :: high :: buckets, h =>
      have hrest : buckets.length = 2 * data.length := by
        simp only [List.length_cons] at h
        omega
      rw [absorbPairs, ih hrest, absorb, absorb, Word.lanes_cons, List.zipWith_cons_cons,
        List.zipWith_cons_cons]

theorem run_takeIn (data : List UInt64) (rig : Rig) :
    (takeIn data).run.run rig =
      match rig.checker.update data with
      | .ok c => (.ok (), { rig with checker := c })
      | .error e => (.error e, rig) := by
  rw [takeIn, Checker.update, absorbVector]
  by_cases hempty : data.length = 0
  · rw [if_pos hempty, hempty]
    rfl
  · rw [if_neg hempty, wordCount_eight_mul (Nat.pos_of_ne_zero hempty)]
    -- the width is compared in the state the run starts in
    change (if rig.checker.buckets.length ≠ 2 * data.length then _ else _ : Driver Unit).run.run rig = _
    by_cases hwidth : rig.checker.buckets.length = 2 * data.length
    · have hfit : ¬ rig.checker.buckets.length ≠ 2 * data.length := fun hne => hne hwidth
      rw [if_neg hfit, if_neg hfit, ← absorbPairs_eq hwidth]
      rfl
    · rw [if_pos hwidth, if_pos hwidth]
      rfl

theorem run_concat (rig : Rig) (rs : List Request) (r : Request) :
    rig.run (rs ++ [r]) =
      ((rig.run rs).1 ++ [⟨r, (rig.run rs).2.offered r, (rig.run rs).2.answer r⟩],
        (rig.run rs).2.after r) := by
  induction rs generalizing rig with
  | nil => rfl
  | cons q rs ih => simp only [List.cons_append, run, ih]

def advances (rs : List Request) : Nat :=
  (rs.rtakeWhile (· ≠ .restartGenerator)).count .advance

theorem advances_restart (rs : List Request) : advances (rs ++ [.restartGenerator]) = 0 := by
  simp [advances]

theorem advances_advance (rs : List Request) : advances (rs ++ [.advance]) = advances rs + 1 := by
  simp [advances]

theorem advances_other (rs : List Request) {r : Request} (hrestart : r ≠ .restartGenerator)
    (hadvance : r ≠ .advance) : advances (rs ++ [r]) = advances rs := by
  simp [advances, hrestart, hadvance]

def Entry.taken? (e : Entry) : Option (List UInt64) :=
  match e.answer with
  | .ok _ => e.offered
  | .error _ => none

def taken (log : List Entry) : List (List UInt64) :=
  (log.rtakeWhile (·.request ≠ .restartChecker)).filterMap Entry.taken?

theorem taken_restart (log : List Entry) {e : Entry} (h : e.request = .restartChecker) :
    taken (log ++ [e]) = [] := by
  simp [taken, h]

theorem taken_concat (log : List Entry) {e : Entry} (h : e.request ≠ .restartChecker) :
    taken (log ++ [e]) = taken log ++ e.taken?.toList := by
  simp only [taken, List.rtakeWhile_concat, h, ne_eq, not_false_eq_true, decide_true, if_true,
    List.filterMap_append]
  cases htaken : e.taken? <;> simp [htaken]

theorem taken_idle (log : List Entry) {e : Entry} (h : e.request ≠ .restartChecker)
    (hnone : e.offered = none) : taken (log ++ [e]) = taken log := by
  have htaken : e.taken? = none := by
    rw [Entry.taken?, hnone]
    cases e.answer <;> rfl
  rw [taken_concat log h, htaken, Option.toList_none, List.append_nil]

section

variable {seed : UInt64} {words checkerWords advanced : Nat} {accepted : List (List UInt64)}
  {rig : Rig} {data : List UInt64}

structure Holds (seed : UInt64) (words checkerWords advanced : Nat)
    (accepted : List (List UInt64)) (rig : Rig) : Prop where
  generator : rig.generator = ⟨seed, generated seed words advanced⟩
  buckets : rig.checker.buckets = accepted.foldl absorb (freshBuckets (2 * checkerWords))
  widths : ∀ v ∈ accepted, v.length = checkerWords

def refusal (checkerWords : Nat) (data : List UInt64) : DataError :=
  if data = [] then .invalidLength 0 else .bucketMismatch (2 * data.length) (2 * checkerWords)

theorem run_takeIn_of_length (hbuckets : rig.checker.buckets.length = 2 * checkerWords)
    (hpos : 0 < checkerWords) (hdata : data.length = checkerWords) :
    (takeIn data).run.run rig =
      (.ok (), { rig with checker := ⟨absorb rig.checker.buckets data⟩ }) := by
  have hupdate : rig.checker.update data = .ok ⟨absorb rig.checker.buckets data⟩ :=
    (Checker.update_eq_ok_iff hpos hbuckets).2 ⟨hdata, rfl⟩
  rw [run_takeIn, hupdate]

theorem run_takeIn_of_ne (hbuckets : rig.checker.buckets.length = 2 * checkerWords)
    (hdata : data.length ≠ checkerWords) :
    (takeIn data).run.run rig = (.error (refusal checkerWords data), rig) := by
  rw [run_takeIn, Checker.update, absorbVector, refusal]
  by_cases hempty : data = []
  · rw [if_pos hempty, if_pos (by rw [hempty]; rfl)]
    rfl
  · have hmismatch : rig.checker.buckets.length ≠ 2 * data.length := by omega
    rw [if_neg hempty, if_neg (fun hlen => hempty (List.eq_nil_of_length_eq_zero hlen)),
      if_pos hmismatch, hbuckets]
    rfl

theorem serve_offered {r : Request} (h : rig.offered r = some data) :
    (serve r).run.run rig = (takeIn data).run.run rig := by
  cases r with
  | updateGenerated =>
    cases h
    rfl
  | updateWith given =>
    cases h
    rfl
  | advance => cases h
  | restartGenerator => cases h
  | restartChecker => cases h

theorem answer_of_not_offered {r : Request} (h : rig.offered r = none) : rig.answer r = .ok () := by
  cases r with
  | updateGenerated => cases h
  | updateWith given => cases h
  | advance => rfl
  | restartGenerator => rfl
  | restartChecker => rfl

namespace Holds

theorem length_buckets (h : Holds seed words checkerWords advanced accepted rig) :
    rig.checker.buckets.length = 2 * checkerWords := by
  have hfresh : (freshBuckets (2 * checkerWords)).length = 2 * checkerWords := List.length_replicate
  rw [h.buckets, length_foldl_absorb, hfresh]
  intro v hv
  rw [Word.length_lanes, h.widths v hv, hfresh]

theorem bucket_eq (h : Holds seed words checkerWords advanced accepted rig) {i : Nat}
    (hi : i < 2 * checkerWords) :
    rig.checker.buckets[i]? =
      some (RollingHash.fold RollingHash.initial (accepted.map fun v => lane v i)) := by
  have hcolumn : column i accepted = accepted.map fun v => lane v i := by
    apply List.map_congr_left
    intro v hv
    rw [List.getD_eq_getElem?_getD, getElem?_lanes v (by rw [h.widths v hv]; exact hi),
      Option.getD_some]
  have hwidth : ∀ v ∈ accepted, (Word.lanes v).length = (freshBuckets (2 * checkerWords)).length := by
    intro v hv
    rw [Word.length_lanes, h.widths v hv, freshBuckets, List.length_replicate]
  rw [h.buckets, foldl_absorb accepted _ hwidth, List.getElem?_mapIdx, freshBuckets,
    List.getElem?_replicate, if_pos hi, Option.map_some, hcolumn]

theorem after_offered (h : Holds seed words checkerWords advanced accepted rig)
    (hpos : 0 < checkerWords) {r : Request} (hr : rig.offered r = some data) :
    Holds seed words checkerWords advanced
      (accepted ++ (Entry.taken? ⟨r, rig.offered r, rig.answer r⟩).toList) (rig.after r) := by
  rw [answer, after, serve_offered hr, hr]
  by_cases hdata : data.length = checkerWords
  · rw [run_takeIn_of_length h.length_buckets hpos hdata]
    refine ⟨h.generator, ?_, ?_⟩
    · simp only [Entry.taken?, Option.toList_some, List.foldl_append, ← h.buckets]
      rfl
    · intro v hv
      rcases List.mem_append.1 hv with hv | hv
      · exact h.widths v hv
      · rw [List.mem_singleton.1 hv]
        exact hdata
  · rw [run_takeIn_of_ne h.length_buckets hdata]
    simpa only [Entry.taken?, Option.toList_none, List.append_nil] using h

theorem after {rs : List Request} {log : List Entry}
    (h : Holds seed words checkerWords (advances rs) (taken log) rig) (hpos : 0 < checkerWords)
    (r : Request) :
    Holds seed words checkerWords (advances (rs ++ [r]))
      (taken (log ++ [⟨r, rig.offered r, rig.answer r⟩])) (rig.after r) := by
  cases r with
  | advance =>
    rw [advances_advance, taken_idle log Request.noConfusion rfl]
    refine ⟨?_, h.buckets, h.widths⟩
    change rig.generator.advance = _
    rw [h.generator, Generator.advance, generated, generated, Function.iterate_succ_apply']
  | restartGenerator =>
    rw [advances_restart, taken_idle log Request.noConfusion rfl]
    refine ⟨?_, h.buckets, h.widths⟩
    change rig.generator.restart = _
    rw [h.generator, Generator.restart, length_generated]
    rfl
  | updateGenerated =>
    rw [advances_other (r := .updateGenerated) rs Request.noConfusion Request.noConfusion,
      taken_concat log Request.noConfusion]
    exact h.after_offered hpos rfl
  | updateWith data =>
    rw [advances_other (r := .updateWith data) rs Request.noConfusion Request.noConfusion,
      taken_concat log Request.noConfusion]
    exact h.after_offered hpos rfl
  | restartChecker =>
    rw [advances_other (r := .restartChecker) rs Request.noConfusion Request.noConfusion,
      taken_restart log rfl]
    refine ⟨h.generator, ?_, fun v hv => absurd hv List.not_mem_nil⟩
    change freshBuckets rig.checker.buckets.length = _
    rw [h.length_buckets, List.foldl_nil]

theorem run (h : Holds seed words checkerWords 0 [] rig) (hpos : 0 < checkerWords)
    (rs : List Request) :
    Holds seed words checkerWords (advances rs) (taken (rig.run rs).1) (rig.run rs).2 := by
  -- from the back, since `advances` and `taken` look back from the last request
  induction rs using List.reverseRecOn with
  | nil => exact h
  | append_singleton rs r ih =>
    rw [run_concat]
    exact ih.after hpos r

end Holds

end

theorem exists_new {words checkerWords : Nat} (hwords : 0 < words) (hchecker : 0 < checkerWords)
    (seed : UInt64) :
    ∃ rig, new (8 * words) seed (8 * checkerWords) = .ok rig ∧
      Holds seed words checkerWords 0 [] rig := by
  refine ⟨⟨⟨seed, initialVector seed words⟩, ⟨freshBuckets (2 * checkerWords)⟩⟩, ?_, ?_⟩
  · rw [new, Generator.new, Checker.new, wordCount_eight_mul hwords, wordCount_eight_mul hchecker]
    rfl
  · exact ⟨rfl, rfl, fun v hv => absurd hv List.not_mem_nil⟩

/-- Whatever requests were served, the generator holds the initial vector advanced as often as since
its restart, and each bucket the hash of its lane over the vectors taken since the checker's restart,
in their order. A vector is refused exactly when it is empty or not as wide as the checker, and then
nothing has changed. -/
theorem run_history {words checkerWords : Nat} (hwords : 0 < words) (hchecker : 0 < checkerWords)
    (seed : UInt64) :
    ∃ start, new (8 * words) seed (8 * checkerWords) = .ok start ∧
      ∀ rs log rig, start.run rs = (log, rig) →
        rig.generator = ⟨seed, (nextVector seed)^[advances rs] (initialVector seed words)⟩ ∧
        rig.checker.buckets.length = 2 * checkerWords ∧
        (∀ i < 2 * checkerWords, rig.checker.buckets[i]? =
          some (RollingHash.fold RollingHash.initial ((taken log).map fun v => lane v i))) ∧
        ∀ r, (rig.offered r = none → rig.answer r = .ok ()) ∧
          ∀ data, rig.offered r = some data →
            (rig.answer r = .error (.invalidLength 0) ↔ data = []) ∧
            (rig.answer r = .error (.bucketMismatch (2 * data.length) (2 * checkerWords)) ↔
              data ≠ [] ∧ data.length ≠ checkerWords) ∧
            (rig.answer r = .ok () ↔ data.length = checkerWords) ∧
            (rig.answer r ≠ .ok () → rig.after r = rig) := by
  obtain ⟨start, hnew, hstart⟩ := exists_new hwords hchecker seed
  refine ⟨start, hnew, ?_⟩
  rintro rs log rig hrun
  have h := hstart.run hchecker rs
  rw [hrun] at h
  refine ⟨h.generator, h.length_buckets, fun i hi => h.bucket_eq hi, ?_⟩
  intro r
  refine ⟨answer_of_not_offered, ?_⟩
  intro data hr
  rw [answer, after, serve_offered hr]
  by_cases hdata : data.length = checkerWords
  · have hfull : data ≠ [] := by
      rintro rfl
      exact Nat.ne_of_lt hchecker hdata
    rw [run_takeIn_of_length h.length_buckets hchecker hdata]
    simp [hdata, hfull]
  · rw [run_takeIn_of_ne h.length_buckets hdata, refusal]
    by_cases hempty : data = []
    · subst hempty
      simpa using hdata
    · simp [hdata, hempty]

theorem run_history_refused_update :
    0 < 2 ∧ ∃ start, new 16 5 16 = .ok start ∧
      ∀ log rig, start.run [.advance, .updateGenerated, .updateWith [1], .restartGenerator,
          .updateGenerated] = (log, rig) →
        rig.generator = ⟨5, initialVector 5 2⟩ ∧
        rig.checker.buckets[1]? = some (RollingHash.fold RollingHash.initial
          [lane (nextVector 5 (initialVector 5 2)) 1, lane (initialVector 5 2) 1]) ∧
        rig.answer (.updateWith []) = .error (.invalidLength 0) ∧
        rig.answer (.updateWith [1]) = .error (.bucketMismatch 2 4) ∧
        rig.after (.updateWith [1]) = rig := by
  have htwo : 0 < 2 := by decide
  obtain ⟨start, hnew, hruns⟩ := run_history htwo htwo 5
  refine ⟨htwo, start, hnew, ?_⟩
  rintro log rig hrun
  obtain ⟨hgenerator, -, hbucket, hrequest⟩ := hruns _ log rig hrun
  have htaken : taken log = [nextVector 5 (initialVector 5 2), initialVector 5 2] := by
    obtain rfl := Except.ok.inj hnew
    obtain rfl := congrArg Prod.fst hrun
    rfl
  have hshort : rig.answer (.updateWith [1]) = .error (.bucketMismatch 2 4) :=
    ((hrequest (.updateWith [1])).2 [1] rfl).2.1.2 ⟨by decide, by decide⟩
  refine ⟨hgenerator, ?_, ?_, hshort, ?_⟩
  · rw [hbucket 1 (by decide), htaken]
    rfl
  · exact ((hrequest (.updateWith [])).2 [] rfl).1.2 rfl
  · apply ((hrequest (.updateWith [1])).2 [1] rfl).2.2.2
    rw [hshort]
    exact nofun

end Rig

end AfuBench
