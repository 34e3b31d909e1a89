import AfuBench.Proofs.ToolSteps
import AfuBench.Proofs.VectorSequence

namespace AfuBench

structure FirstDifference {α : Type} (k : Nat) (xs ys : List α) : Prop where
  lt_length : k < xs.length
  ne : xs[k]? ≠ ys[k]?
  before : ∀ i, i < k → xs[i]? = ys[i]?

structure DiffersInHalfWord (j : Nat) (bs cs : List UInt8) : Prop where
  length_eq : bs.length = cs.length
  ne : bs ≠ cs
  before : bs.take (4 * j) = cs.take (4 * j)
  after : bs.drop (4 * j + 4) = cs.drop (4 * j + 4)

namespace Dump

theorem group_eq_of_lt {bs cs : List UInt8} {i j : Nat} (hij : i < j)
    (h : bs.take (4 * j) = cs.take (4 * j)) :
    (bs.drop (4 * i)).take 4 = (cs.drop (4 * i)).take 4 := by
  have hgroup : ∀ ds : List UInt8, (ds.drop (4 * i)).take 4 =
      ((ds.take (4 * j)).drop (4 * i)).take 4 := by
    intro ds
    rw [List.drop_take, List.take_take, Nat.min_eq_left (by omega)]
  rw [hgroup bs, hgroup cs, h]

theorem group_eq_of_gt {bs cs : List UInt8} {i j : Nat} (hij : j < i)
    (h : bs.drop (4 * j + 4) = cs.drop (4 * j + 4)) :
    (bs.drop (4 * i)).take 4 = (cs.drop (4 * i)).take 4 := by
  have hgroup : ∀ ds : List UInt8, ds.drop (4 * i) =
      (ds.drop (4 * j + 4)).drop (4 * i - (4 * j + 4)) := by
    intro ds
    rw [List.drop_drop, Nat.add_sub_cancel' (by omega)]
  rw [hgroup bs, hgroup cs, h]

theorem eq_of_group_eq {bs cs : List UInt8} {j : Nat}
    (hbefore : bs.take (4 * j) = cs.take (4 * j))
    (hgroup : (bs.drop (4 * j)).take 4 = (cs.drop (4 * j)).take 4)
    (hafter : bs.drop (4 * j + 4) = cs.drop (4 * j + 4)) : bs = cs := by
  have hsplit : ∀ ds : List UInt8,
      ds = ds.take (4 * j) ++ ((ds.drop (4 * j)).take 4 ++ ds.drop (4 * j + 4)) := by
    intro ds
    rw [← List.drop_drop, List.take_append_drop, List.take_append_drop]
  rw [hsplit bs, hsplit cs, hbefore, hgroup, hafter]

theorem lanes_differsAt {bs cs : List UInt8} {j count : Nat} (h : DiffersInHalfWord j bs cs)
    (hlen : cs.length = 8 * count) :
    DiffersAt j (Word.lanes (decodeWords bs)) (Word.lanes (decodeWords cs)) := by
  have hbs : bs.length = 8 * count := h.length_eq.trans hlen
  have hj : 4 * j < bs.length := by
    by_contra hge
    have hall := h.before
    rw [List.take_of_length_le (by omega), List.take_of_length_le (by omega)] at hall
    exact h.ne hall
  have hgroup : ∀ ds : List UInt8, ∀ i < 2 * count,
      ((Blocks.cut 4 (2 * count) ds).map bytesLane)[i]? =
        some (bytesLane ((ds.drop (4 * i)).take 4)) := by
    intro ds i hi
    rw [List.getElem?_map, Blocks.getElem?_cut 4 (2 * count) ds hi, Option.map_some]
  rw [lanes_decodeWords hbs, lanes_decodeWords hlen]
  refine ⟨?_, ?_, ?_⟩
  · simp [Blocks.length_cut]
  · rw [hgroup bs j (by omega), hgroup cs j (by omega), ne_eq, Option.some.injEq]
    intro hlane
    apply h.ne
    apply eq_of_group_eq h.before _ h.after
    apply bytesLane_injective _ _ hlane
    · rw [List.length_take, List.length_drop]
      omega
    · rw [List.length_take, List.length_drop]
      omega
  · intro i hi
    by_cases hlt : i < 2 * count
    · rw [hgroup bs i hlt, hgroup cs i hlt]
      rcases Nat.lt_or_gt_of_ne hi with hij | hij
      · rw [group_eq_of_lt hij h.before]
      · rw [group_eq_of_gt hij h.after]
    · rw [List.getElem?_eq_none (by simp [Blocks.length_cut]; omega),
        List.getElem?_eq_none (by simp [Blocks.length_cut]; omega)]

end Dump

theorem streamHash_decode_ne {content : List UInt8} {seed : UInt64} {words count j : Nat}
    (hwords : 0 < words)
    (h : DiffersInHalfWord j content (Dump.encode (vectors seed words count))) :
    streamHash words (Dump.decode words content) ≠
      streamHash words (vectors seed words (Dump.decode words content).length) := by
  have hflat : (vectors seed words count).flatten.length = words * count := by
    rw [length_flatten_of_forall fun v => length_of_mem_vectors, length_vectors]
  have henc : (Dump.encode (vectors seed words count)).length = 8 * (words * count) := by
    rw [Dump.encode, Dump.length_encodeWords, hflat]
  have hcontent : content.length = 8 * words * count := by
    rw [h.length_eq, henc, Nat.mul_assoc]
  have hcount : (Dump.decode words content).length = count := by
    rw [Dump.length_decode, hcontent, Nat.mul_assoc, Nat.mul_div_cancel_left _ (by omega),
      Nat.mul_div_cancel_left count hwords]
  have hlanes := Dump.lanes_differsAt h henc
  rw [Dump.encode, Dump.decodeWords_encodeWords, ← Dump.flatten_decode hcontent] at hlanes
  rw [hcount]
  exact streamHash_ne (fun v => Dump.length_of_mem_decode) (fun v => length_of_mem_vectors)
    (hcount.trans (length_vectors seed words count).symm) hwords hlanes

namespace Tool

theorem firstMismatch_eq_some {xs ys : List (List UInt64)} {k : Nat}
    (hlen : xs.length = ys.length) (h : firstMismatch xs ys = some k) :
    FirstDifference k xs ys := by
  obtain ⟨⟨⟨x, y⟩, i⟩, hfind, rfl⟩ := Option.map_eq_some_iff.1 h
  obtain ⟨hne, n, hn, hat, hbefore⟩ := List.find?_eq_some_iff_getElem.1 hfind
  simp only [List.length_zipIdx, List.length_zip] at hn
  simp only [List.getElem_zipIdx, List.getElem_zip, Nat.zero_add, Prod.mk.injEq] at hat hbefore
  obtain ⟨⟨rfl, rfl⟩, rfl⟩ := hat
  refine ⟨by omega, ?_, ?_⟩
  · rw [List.getElem?_eq_getElem, List.getElem?_eq_getElem, ne_eq, Option.some.injEq]
    simpa using hne
  · intro i hi
    rw [List.getElem?_eq_getElem (by omega), List.getElem?_eq_getElem (by omega),
      Option.some.injEq]
    simpa using hbefore i hi

theorem firstMismatch_eq_none {xs ys : List (List UInt64)} (hlen : xs.length = ys.length)
    (h : firstMismatch xs ys = none) : xs = ys := by
  apply List.ext_getElem hlen
  intro i hx hy
  have hmem : ((xs[i], ys[i]), i) ∈ (xs.zip ys).zipIdx := by
    apply List.mem_iff_getElem.2
    exact ⟨i, by simp; omega, by simp⟩
  have hall := List.find?_eq_none.1 (Option.map_eq_none_iff.1 h) _ hmem
  simpa using hall

def checkLines (words : Nat) (seed : UInt64) (held : List (List UInt64)) : List String :=
  let expected := vectors seed words held.length
  ["Vectors:  " ++ decimal held.length,
    "Hash:     0x" ++ hexWordFull (streamHash words held),
    "Expected: 0x" ++ hexWordFull (streamHash words expected)] ++
  if streamHash words held = streamHash words expected then []
  else ((firstMismatch held expected).map fun k => "First mismatch at vector " ++ decimal k).toList

theorem lines_foldl_printLine (texts : List String) :
    (texts.foldl Console.printLine .empty).lines = texts := by
  have hended : ∀ (ts : List String) (ended : Array String),
      ts.foldl Console.printLine ⟨ended, ""⟩ = ⟨ended ++ ts.toArray, ""⟩ := by
    intro ts
    induction ts with
    | nil => simp
    | cons t ts ih =>
      intro ended
      rw [List.foldl_cons, Console.printLine, ih]
      simp
  rw [Console.empty, hended]
  simp [Console.lines]

theorem run_checkDump {path : String} {bytes words : Nat} {held : List (List UInt64)}
    (seed : UInt64) (w : Workspace) (hwords : wordCount bytes = .ok words)
    (hheld : loaded w.files path bytes = .ok held) :
    (checkDump path bytes seed).run.run w =
      (.ok (decide (streamHash words held = streamHash words (vectors seed words held.length))),
        { w with console := (checkLines words seed held).foldl Console.printLine w.console }) := by
  have hexpected := expectedHash_of_wordCount hwords seed held.length
  rw [checkDump, run_bind, run_loadDump, hheld]
  simp only [run_bind, hwords, hexpected, run_orFail_ok, run_printLine]
  by_cases hsame : streamHash words held = streamHash words (vectors seed words held.length)
  · simp only [checkLines, hsame, ne_eq, not_true_eq_false, if_false, if_true, decide_true]
    rfl
  · cases hfirst : firstMismatch held (vectors seed words held.length) with
    | none =>
      simp only [checkLines, hsame, hfirst, ne_eq, not_false_eq_true, if_false, if_true,
        decide_false]
      rfl
    | some k =>
      simp only [checkLines, hsame, hfirst, ne_eq, not_false_eq_true, if_false, if_true,
        decide_false]
      rfl

theorem checkDump_exec {files : FileStore} {path : String} {bytes words : Nat}
    {held : List (List UInt64)} (seed : UInt64) (hwords : wordCount bytes = .ok words)
    (hheld : loaded files path bytes = .ok held) :
    ((checkDump path bytes seed).exec files).1 =
        .ok (decide (streamHash words held = streamHash words (vectors seed words held.length))) ∧
      ((checkDump path bytes seed).exec files).2.console.lines = checkLines words seed held := by
  rw [exec, run_checkDump seed ⟨files, .empty⟩ hwords hheld]
  exact ⟨rfl, lines_foldl_printLine _⟩

theorem loaded_of_checkDump {files : FileStore} {path : String} {bytes : Nat} {seed : UInt64}
    {verdict : Bool} (h : ((checkDump path bytes seed).exec files).1 = .ok verdict) :
    ∃ words content, wordCount bytes = .ok words ∧ files.read path = .ok content ∧
      loaded files path bytes = .ok (Dump.decode words content) := by
  cases hheld : loaded files path bytes with
  | error e =>
    rw [exec, checkDump, run_bind, run_loadDump, hheld] at h
    exact absurd h (by simp)
  | ok held =>
    obtain ⟨words, content, hwords, hread, _, rfl⟩ := loaded_eq_ok_iff.1 hheld
    exact ⟨words, content, hwords, hread, rfl⟩

def mismatchReports (c : Console) : List String :=
  c.lines.filter fun line => "First mismatch at vector ".toList.isPrefixOf line.toList

theorem filter_checkLines (words : Nat) (seed : UInt64) (held : List (List UInt64)) :
    (checkLines words seed held).filter
        (fun line => "First mismatch at vector ".toList.isPrefixOf line.toList) =
      if streamHash words held = streamHash words (vectors seed words held.length) then []
      else ((firstMismatch held (vectors seed words held.length)).map fun k =>
        "First mismatch at vector " ++ decimal k).toList := by
  have hlines : ∀ text : String,
      "First mismatch at vector ".toList.isPrefixOf ("Vectors:  " ++ text).toList = false ∧
      "First mismatch at vector ".toList.isPrefixOf ("Hash:     0x" ++ text).toList = false ∧
      "First mismatch at vector ".toList.isPrefixOf ("Expected: 0x" ++ text).toList = false := by
    intro text
    simp [List.isPrefixOf]
  simp only [checkLines, List.cons_append, List.nil_append, List.filter_cons, (hlines _).1,
    (hlines _).2.1, (hlines _).2.2, Bool.false_eq_true, if_false]
  split
  · rfl
  · cases firstMismatch held (vectors seed words held.length) with
    | none => rfl
    | some k => simp

theorem checkDump_refuses {files : FileStore} {path : String} {bytes words count j : Nat}
    {content : List UInt8} {seed : UInt64} (hwords : wordCount bytes = .ok words)
    (hread : files.read path = .ok content)
    (hdiff : DiffersInHalfWord j content (Dump.encode (vectors seed words count))) :
    ((checkDump path bytes seed).exec files).1 = .ok false := by
  obtain ⟨hpos, rfl⟩ := wordCount_eq_ok_iff.1 hwords
  have hlen : content.length % (8 * words) = 0 := by
    rw [hdiff.length_eq, Dump.encode, Dump.length_encodeWords,
      length_flatten_of_forall fun v => length_of_mem_vectors, ← Nat.mul_assoc]
    exact Nat.mul_mod_right _ _
  have hheld : loaded files path (8 * words) = .ok (Dump.decode words content) :=
    loaded_eq_ok_iff.2 ⟨words, content, hwords, hread, hlen, rfl⟩
  rw [(checkDump_exec seed hwords hheld).1, decide_eq_false]
  exact streamHash_decode_ne hpos hdiff

theorem reports_of_refused {files : FileStore} {path : String} {bytes : Nat} {seed : UInt64}
    (h : ((checkDump path bytes seed).exec files).1 = .ok false) :
    ∃ words content k, wordCount bytes = .ok words ∧ files.read path = .ok content ∧
      FirstDifference k (Dump.decode words content)
        (vectors seed words (Dump.decode words content).length) ∧
      mismatchReports ((checkDump path bytes seed).exec files).2.console =
        ["First mismatch at vector " ++ decimal k] := by
  obtain ⟨words, content, hwords, hread, hheld⟩ := loaded_of_checkDump h
  obtain ⟨hverdict, hlines⟩ := checkDump_exec seed hwords hheld
  have hne : streamHash words (Dump.decode words content) ≠
      streamHash words (vectors seed words (Dump.decode words content).length) := by
    rw [hverdict, Except.ok.injEq] at h
    exact of_decide_eq_false h
  have hlen := length_vectors seed words (Dump.decode words content).length
  cases hfirst : firstMismatch (Dump.decode words content)
      (vectors seed words (Dump.decode words content).length) with
  | none =>
    -- vectors that are all equal would have equal hashes
    exfalso
    apply hne
    rw [← firstMismatch_eq_none hlen.symm hfirst]
  | some k =>
    refine ⟨words, content, k, hwords, hread, firstMismatch_eq_some hlen.symm hfirst, ?_⟩
    rw [mismatchReports, hlines, filter_checkLines, if_neg hne, hfirst]
    rfl

theorem reports_of_accepted {files : FileStore} {path : String} {bytes : Nat} {seed : UInt64}
    (h : ((checkDump path bytes seed).exec files).1 = .ok true) :
    mismatchReports ((checkDump path bytes seed).exec files).2.console = [] := by
  obtain ⟨words, content, hwords, _, hheld⟩ := loaded_of_checkDump h
  obtain ⟨hverdict, hlines⟩ := checkDump_exec seed hwords hheld
  have heq : streamHash words (Dump.decode words content) =
      streamHash words (vectors seed words (Dump.decode words content).length) := by
    rw [hverdict, Except.ok.injEq] at h
    exact of_decide_eq_true h
  rw [mismatchReports, hlines, filter_checkLines, if_pos heq]

theorem checkDump_verdict (files : FileStore) (path : String) (bytes : Nat) (seed : UInt64) :
    (∀ words count content j, wordCount bytes = .ok words → files.read path = .ok content →
      DiffersInHalfWord j content (Dump.encode (vectors seed words count)) →
      ((checkDump path bytes seed).exec files).1 = .ok false) ∧
    (((checkDump path bytes seed).exec files).1 = .ok false →
      ∃ words content k, wordCount bytes = .ok words ∧ files.read path = .ok content ∧
        FirstDifference k (Dump.decode words content)
          (vectors seed words (Dump.decode words content).length) ∧
        mismatchReports ((checkDump path bytes seed).exec files).2.console =
          ["First mismatch at vector " ++ decimal k]) ∧
    (((checkDump path bytes seed).exec files).1 = .ok true →
      mismatchReports ((checkDump path bytes seed).exec files).2.console = []) := by
  refine ⟨?_, ?_, ?_⟩
  · intro words count content j hwords hread hdiff
    exact checkDump_refuses hwords hread hdiff
  · intro hrefused
    exact reports_of_refused hrefused
  · intro haccepted
    exact reports_of_accepted haccepted

/-- Three vectors of two words, with one bit flipped in the second of them. -/
def flippedBit : List UInt8 :=
  (Dump.encode (vectors 0xf00 2 3)).modify 29 (· ^^^ 0x40)

theorem checkDump_verdict_flippedBit :
    DiffersInHalfWord 7 flippedBit (Dump.encode (vectors 0xf00 2 3)) ∧
      ((checkDump "d" 16 0xf00).exec ⟨[], [([['d']], flippedBit)]⟩).1 = .ok false ∧
      mismatchReports ((checkDump "d" 16 0xf00).exec ⟨[], [([['d']], flippedBit)]⟩).2.console =
        ["First mismatch at vector 1"] := by
  have hdiff : DiffersInHalfWord 7 flippedBit (Dump.encode (vectors 0xf00 2 3)) :=
    ⟨by decide +kernel, by decide +kernel, by decide +kernel, by decide +kernel⟩
  have hread : FileStore.read ⟨[], [([['d']], flippedBit)]⟩ "d" = .ok flippedBit := rfl
  obtain ⟨hrefuses, hreported, _⟩ :=
    checkDump_verdict ⟨[], [([['d']], flippedBit)]⟩ "d" 16 0xf00
  have hfalse := hrefuses 2 3 flippedBit 7 rfl hread hdiff
  obtain ⟨words, content, k, hwords, hcontent, hfirst, hreport⟩ := hreported hfalse
  obtain rfl : 2 = words := Except.ok.inj hwords
  obtain rfl : flippedBit = content := Except.ok.inj (hread.symm.trans hcontent)
  obtain rfl : k = 1 := by
    rcases Nat.lt_trichotomy k 1 with hbelow | hat | habove
    · obtain rfl := Nat.lt_one_iff.1 hbelow
      exact absurd hfirst.ne (by decide +kernel)
    · exact hat
    · exact absurd (hfirst.before 1 habove) (by decide +kernel)
  exact ⟨hdiff, hfalse, hreport⟩

end Tool

end AfuBench
