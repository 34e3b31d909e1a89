import AfuBench.Proofs.GoldenLayout
import AfuBench.Proofs.Outcomes

namespace AfuBench

namespace Golden

namespace Entry

theorem expectedHash_of_valid {e : Entry} (he : e.Valid) :
    expectedHash e.bytes.toNat e.seed e.count.toNat = .ok e.generated := by
  obtain ⟨hpos, hmod⟩ := he
  refine expectedHash_of_wordCount ?_ e.seed e.count.toNat
  rw [wordCount, if_neg (by omega)]

theorem expectedHash_eq_error_iff {e : Entry} {fault : DataError} :
    expectedHash e.bytes.toNat e.seed e.count.toNat = .error fault ↔
      ¬ e.Valid ∧ fault = .invalidLength e.bytes.toNat := by
  by_cases he : e.Valid
  · simp [expectedHash_of_valid he, he]
  · have hlength : e.bytes.toNat < 8 ∨ e.bytes.toNat % 8 ≠ 0 := by
      rw [Valid] at he
      omega
    rw [expectedHash_eq, wordCount, if_pos hlength]
    simp [Except.map, he, eq_comm]

def ReplacedByOther (e : Entry) : Prop :=
  e.replaced ≠ some e.generated

instance (e : Entry) : Decidable e.ReplacedByOther :=
  inferInstanceAs (Decidable (e.replaced ≠ some e.generated))

theorem recompute_record {e : Entry} (hvalid : e.Valid) (hother : e.ReplacedByOther)
    (line : Nat) :
    recompute (e.record line) =
      .ok (if e.replaced.isSome then some ⟨e.record line, e.generated⟩ else none) := by
  have hsame : e.generated = e.hash ↔ ¬ e.replaced.isSome := by
    cases hreplaced : e.replaced with
    | none => simp [hash, hreplaced]
    | some h =>
      have hdiffers : e.generated ≠ h := fun heq => hother (heq ▸ hreplaced)
      simp [hash, hreplaced, hdiffers]
  rw [recompute]
  simp only [record, expectedHash_of_valid hvalid, Except.map, hsame, ite_not]

theorem recompute_record_eq_error_iff {e : Entry} {line : Nat} {fault : DataError} :
    recompute (e.record line) = .error fault ↔
      ¬ e.Valid ∧ fault = .invalidLength e.bytes.toNat := by
  rw [← expectedHash_eq_error_iff, recompute]
  simp only [record]
  cases expectedHash e.bytes.toNat e.seed e.count.toNat <;> simp [Except.map]

end Entry

namespace Layout

variable {layout : Layout}

theorem map_fst_numbered (layout : Layout) : layout.numbered.map (·.1) = layout.entries := by
  have hstart : ∀ start, ((layout.zipIdx start).filterMap fun l => l.1.entry.map (·, l.2)).map
      (·.1) = layout.entries := by
    unfold entries
    induction layout with
    | nil => exact fun _ => rfl
    | cons l layout ih =>
      intro start
      rw [List.zipIdx_cons]
      cases hentry : l.entry with
      | none => simpa [hentry] using ih (start + 1)
      | some e => simpa [hentry] using ih (start + 1)
  exact hstart 1

theorem mem_entries_of_mem_numbered {e : Entry × Nat} (he : e ∈ layout.numbered) :
    e.1 ∈ layout.entries := by
  rw [← map_fst_numbered]
  exact List.mem_map_of_mem he

theorem length_records (layout : Layout) : layout.records.length = layout.entries.length := by
  rw [records, List.length_map, ← map_fst_numbered, List.length_map]

def reported (layout : Layout) : List Mismatch :=
  (layout.numbered.filter (·.1.replaced.isSome)).map fun e => ⟨e.1.record e.2, e.1.generated⟩

theorem length_reported (layout : Layout) :
    layout.reported.length = layout.entries.countP (·.replaced.isSome) := by
  rw [reported, List.length_map, ← List.countP_eq_length_filter, ← map_fst_numbered,
    List.countP_map]
  rfl

theorem length_records_sub_reported (layout : Layout) :
    layout.records.length - layout.reported.length =
      layout.entries.countP (·.replaced.isNone) := by
  have hsplit := List.length_eq_countP_add_countP (fun e : Entry => e.replaced.isSome)
    (l := layout.entries)
  simp only [Bool.not_eq_true, Option.isSome_eq_false_iff, Bool.decide_eq_true] at hsplit
  rw [length_records, length_reported]
  omega

theorem mismatches_records (hvalid : ∀ e ∈ layout.entries, e.Valid)
    (hother : ∀ e ∈ layout.entries, e.ReplacedByOther) :
    mismatches layout.records = .ok layout.reported := by
  have hrecompute : ∀ e ∈ layout.numbered, (recompute ∘ fun e => e.1.record e.2) e =
      .ok (if e.1.replaced.isSome then some ⟨e.1.record e.2, e.1.generated⟩ else none) := by
    intro e he
    have hmem := mem_entries_of_mem_numbered he
    exact Entry.recompute_record (hvalid _ hmem) (hother _ hmem) e.2
  rw [mismatches, records, List.mapM_map, mapM_eq_ok hrecompute, reported]
  simp only [Except.map, List.filterMap_map, Function.id_comp]
  rw [← List.filterMap_eq_map, List.filterMap_filter]
  rfl

theorem mismatches_records_invalid (hinvalid : ∃ e ∈ layout.entries, ¬ e.Valid) :
    ∃ e ∈ layout.entries, ¬ e.Valid ∧
      mismatches layout.records = .error (.invalidLength e.bytes.toNat) := by
  have hfail : ∃ r ∈ layout.records, ∃ fault, recompute r = .error fault := by
    obtain ⟨e, he, hbad⟩ := hinvalid
    rw [← map_fst_numbered] at he
    obtain ⟨n, hn, rfl⟩ := List.mem_map.1 he
    exact ⟨n.1.record n.2, List.mem_map_of_mem hn, _,
      Entry.recompute_record_eq_error_iff.2 ⟨hbad, rfl⟩⟩
  -- Whichever record fails first, it fails with its own length.
  obtain ⟨r, hr, fault, hfault, hmap⟩ := exists_mapM_eq_error hfail
  obtain ⟨n, hn, rfl⟩ := List.mem_map.1 hr
  obtain ⟨hbad, rfl⟩ := Entry.recompute_record_eq_error_iff.1 hfault
  refine ⟨n.1, mem_entries_of_mem_numbered hn, hbad, ?_⟩
  rw [mismatches, hmap]
  rfl

end Layout

end Golden

namespace Tool

variable {path : String} {w : Workspace} {layout : Golden.Layout}

theorem run_generate_none {bytes count : Nat} {seed hash : UInt64}
    (hhash : expectedHash bytes seed count = .ok hash) (w : Workspace) :
    (generate bytes seed count none).run.run w =
      (.ok hash,
        { w with console := w.console.printLine (goldenLine bytes seed count hash) }) := by
  cases hbytes : wordCount bytes with
  | error e =>
    rw [expectedHash, hbytes] at hhash
    exact absurd hhash (by simp [Except.map])
  | ok words =>
    rw [generate, run_bind, hbytes]
    simp only [run_bind, hhash, run_orFail_ok, run_printLine]
    rfl

theorem run_forM_printLine {α : Type} (line : α → String) (xs : List α) (w : Workspace) :
    (xs.forM fun x => printLine (line x)).run.run w =
      (.ok (), { w with console := (xs.map line).foldl Console.printLine w.console }) := by
  induction xs generalizing w with
  | nil => rfl
  | cons x xs ih =>
    change (printLine (line x) >>= fun _ => xs.forM fun x => printLine (line x)).run.run w = _
    rw [run_bind, run_printLine]
    exact ih _

def loadLines (path : String) (loaded : Nat) : List String :=
  ["Loading golden vectors from " ++ path ++ "...", "Loaded " ++ decimal loaded ++ " vectors."]

theorem run_verify {found : List Golden.Mismatch} (hread : w.files.read path = .ok layout.content)
    (hfound : Golden.mismatches layout.records = .ok found) :
    (verify path).run.run w =
      (.ok found.length,
        { w with
          console := (loadLines path layout.records.length ++ found.map Golden.Mismatch.line ++
            ["Matched: " ++ decimal (layout.records.length - found.length) ++ "/" ++
              decimal layout.records.length]).foldl Console.printLine w.console }) := by
  rw [verify, run_bind, run_printLine]
  simp only [run_bind, run_loadGolden hread, run_printLine, hfound, run_orFail_ok,
    run_forM_printLine, loadLines, List.foldl_append, List.foldl_cons, List.foldl_nil]
  rfl

theorem run_verify_error {e : DataError} (hread : w.files.read path = .ok layout.content)
    (hfound : Golden.mismatches layout.records = .error e) :
    (verify path).run.run w =
      (.error (.data e),
        { w with
          console := (loadLines path layout.records.length).foldl Console.printLine w.console }) := by
  rw [verify, run_bind, run_printLine]
  simp only [run_bind, run_loadGolden hread, run_printLine, hfound, run_orFail]
  rfl

theorem run_verify_replaced (hread : w.files.read path = .ok layout.content)
    (hvalid : ∀ e ∈ layout.entries, e.Valid) (hother : ∀ e ∈ layout.entries, e.ReplacedByOther) :
    (verify path).run.run w =
      (.ok (layout.entries.countP (·.replaced.isSome)),
        { w with
          console := (loadLines path layout.entries.length ++
            layout.reported.map Golden.Mismatch.line ++
            ["Matched: " ++ decimal (layout.entries.countP (·.replaced.isNone)) ++ "/" ++
              decimal layout.entries.length]).foldl Console.printLine w.console }) := by
  have hrun := run_verify hread (layout.mismatches_records hvalid hother)
  rwa [layout.length_records_sub_reported, layout.length_reported, layout.length_records] at hrun

/-- A golden file of generated lines is loaded as its records and matches as a whole. Where hashes
were replaced by others, exactly those records are found in the order of the file, each with the
generated hash, and counted. A record of an invalid length makes the check fail. -/
theorem verify_generated (w : Workspace) (path : String) (layout : Golden.Layout)
    (hread : w.files.read path = .ok layout.content) :
    (∀ e ∈ layout.entries, e.Valid → ∀ v : Workspace,
      (generate e.bytes.toNat e.seed e.count.toNat none).run.run v =
        (.ok e.generated,
          { v with
            console := v.console.printLine
              (goldenLine e.bytes.toNat e.seed e.count.toNat e.generated) })) ∧
    (loadGolden path).run.run w = (.ok layout.records, w) ∧
    ((∀ e ∈ layout.entries, e.Valid) →
      ((∀ e ∈ layout.entries, e.replaced = none) →
        ∃ v, (verify path).run.run w = (.ok 0, v)) ∧
      ((∀ e ∈ layout.entries, e.ReplacedByOther) →
        Golden.mismatches layout.records = .ok layout.reported ∧
        (verify path).run.run w =
          (.ok (layout.entries.countP (·.replaced.isSome)),
            { w with
              console := (loadLines path layout.entries.length ++
                layout.reported.map Golden.Mismatch.line ++
                ["Matched: " ++ decimal (layout.entries.countP (·.replaced.isNone)) ++ "/" ++
                  decimal layout.entries.length]).foldl Console.printLine w.console }))) ∧
    ((∃ e ∈ layout.entries, ¬ e.Valid) →
      ∃ e ∈ layout.entries, ¬ e.Valid ∧
        (verify path).run.run w =
          (.error (.data (.invalidLength e.bytes.toNat)),
            { w with
              console := (loadLines path layout.entries.length).foldl Console.printLine
                w.console })) := by
  refine ⟨?_, run_loadGolden hread w.console, ?_, ?_⟩
  · exact fun e _ hvalid v => run_generate_none (Golden.Entry.expectedHash_of_valid hvalid) v
  · refine fun hvalid => ⟨fun hnone => ?_, fun hother =>
      ⟨layout.mismatches_records hvalid hother, run_verify_replaced hread hvalid hother⟩⟩
    have hcount : layout.entries.countP (·.replaced.isSome) = 0 := by
      rw [List.countP_eq_zero]
      intro e he
      simp [hnone e he]
    have hothers : ∀ e ∈ layout.entries, e.ReplacedByOther := by
      intro e he
      simp [Golden.Entry.ReplacedByOther, hnone e he]
    exact ⟨_, hcount ▸ run_verify_replaced hread hvalid hothers⟩
  · intro hinvalid
    obtain ⟨e, he, hbad, hfound⟩ := layout.mismatches_records_invalid hinvalid
    refine ⟨e, he, hbad, ?_⟩
    have hrun := run_verify_error hread hfound
    rwa [layout.length_records] at hrun

def goldenWorkspace (layout : Golden.Layout) : Workspace :=
  ⟨⟨[], [([['g']], layout.content)]⟩, .empty⟩

def commentedLayout (replaced : Option UInt64) (bytes : UInt64) : Golden.Layout :=
  [⟨.empty, none, .empty, ⟨"# engine 0".toList, by simp, by decide⟩⟩,
    ⟨⟨['\t', ' '], by simp [Text.isBlank], by decide⟩, some ⟨8, 0, 1, replaced⟩,
      ⟨[' '], by simp [Text.isBlank], by decide⟩, ⟨"# seed #0".toList, by simp, by decide⟩⟩,
    ⟨.empty, none, .empty, .empty⟩,
    ⟨.empty, some ⟨bytes, 0xf00, 2, none⟩, ⟨['\r'], by simp [Text.isBlank], by decide⟩, .empty⟩]

theorem verify_generated_commented :
    (∃ v, (verify "g").run.run (goldenWorkspace (commentedLayout none 16)) = (.ok 0, v)) ∧
      ((loadGolden "g").run.run (goldenWorkspace (commentedLayout (some 1) 16))).1 =
        .ok (commentedLayout (some 1) 16).records ∧
      (commentedLayout (some 1) 16).records.map (·.line) = [2, 4] ∧
      Golden.mismatches (commentedLayout (some 1) 16).records =
        .ok [⟨⟨8, 0, 1, 1, 2⟩, streamHash 1 (vectors 0 1 1)⟩] ∧
      (∃ v, (verify "g").run.run (goldenWorkspace (commentedLayout (some 1) 16)) = (.ok 1, v)) ∧
      ∃ v, (verify "g").run.run (goldenWorkspace (commentedLayout none 12)) =
        (.error (.data (.invalidLength 12)), v) := by
  have hread (layout : Golden.Layout) :
      (goldenWorkspace layout).files.read "g" = .ok layout.content := rfl
  have hnone : ∀ e ∈ (commentedLayout none 16).entries, e.Valid ∧ e.replaced = none := by
    decide
  have hsome : ∀ e ∈ (commentedLayout (some 1) 16).entries, e.Valid ∧ e.ReplacedByOther := by
    decide +kernel
  have hbad : ∃ e ∈ (commentedLayout none 12).entries, ¬ e.Valid := by
    decide
  obtain ⟨_, _, hsound, _⟩ := verify_generated _ "g" (commentedLayout none 16) (hread _)
  obtain ⟨_, hload, hreplaced, _⟩ :=
    verify_generated _ "g" (commentedLayout (some 1) 16) (hread _)
  obtain ⟨_, _, _, hinvalid⟩ := verify_generated _ "g" (commentedLayout none 12) (hread _)
  obtain ⟨hfound, hrun⟩ := (hreplaced fun e he => (hsome e he).1).2 fun e he => (hsome e he).2
  obtain ⟨e, he, hnot, hfail⟩ := hinvalid hbad
  have hbytes : ∀ e ∈ (commentedLayout none 12).entries, ¬ e.Valid → e.bytes.toNat = 12 := by
    decide
  rw [hbytes e he hnot] at hfail
  exact ⟨(hsound fun e he => (hnone e he).1).1 fun e he => (hnone e he).2, by rw [hload], rfl,
    hfound, ⟨_, hrun⟩, _, hfail⟩

end Tool

end AfuBench
