import AfuBench.Files.Tools
import AfuBench.Proofs.GoldenLine
import AfuBench.Proofs.ToolSteps

namespace AfuBench

namespace Golden

theorem mem_goldenLine {bytes count : Nat} {seed hash : UInt64} {c : Char}
    (hc : c ∈ (goldenLine bytes seed count hash).toList) :
    c ∈ "bytes= seed=0x count= hash=0x".toList ∨ Number.isHexDigit c := by
  have hlabel (label : String) (hc : c ∈ label.toList)
      (hsub : label.toList.all ("bytes= seed=0x count= hash=0x".toList.contains ·)) :
      c ∈ "bytes= seed=0x count= hash=0x".toList :=
    List.contains_iff_mem.1 (List.all_eq_true.1 hsub c hc)
  have hdecimal (n : Nat) (hc : c ∈ (decimal n).toList) : Number.isHexDigit c := by
    rw [toList_decimal] at hc
    simp [Number.isHexDigit, Number.isDigit_of_mem_toDigits hc]
  have hseed (hc : c ∈ (hexWord seed).toList) : Number.isHexDigit c := by
    rw [hexWord, toList_hex] at hc
    exact Number.isHexDigit_of_mem_toDigits hc
  simp only [goldenLine, String.toList_append, List.mem_append] at hc
  rcases hc with ((((((hc | hc) | hc) | hc) | hc) | hc) | hc) | hc
  · exact .inl (hlabel _ hc (by decide))
  · exact .inr (hdecimal _ hc)
  · exact .inl (hlabel _ hc (by decide))
  · exact .inr (hseed hc)
  · exact .inl (hlabel _ hc (by decide))
  · exact .inr (hdecimal _ hc)
  · exact .inl (hlabel _ hc (by decide))
  · exact .inr (Number.isHexDigit_of_mem_hexWordFull hc)

theorem not_mem_goldenLine {bytes count : Nat} {seed hash : UInt64} {c : Char}
    (hlabel : c ∉ "bytes= seed=0x count= hash=0x".toList) (hdigit : ¬ Number.isHexDigit c) :
    c ∉ (goldenLine bytes seed count hash).toList :=
  fun hc => (mem_goldenLine hc).elim hlabel hdigit

theorem head?_goldenLine (bytes count : Nat) (seed hash : UInt64) :
    (goldenLine bytes seed count hash).toList.head? = some 'b' := by
  simp [goldenLine]

theorem isHexDigit_getLast?_goldenLine {bytes count : Nat} {seed hash : UInt64} {c : Char}
    (hc : c ∈ (goldenLine bytes seed count hash).toList.getLast?) : Number.isHexDigit c := by
  have hlast := List.getLast?_eq_some_getLast (Number.hexWordFull_ne_nil hash)
  rw [goldenLine, String.toList_append, List.getLast?_append, hlast, Option.some_or, ← hlast] at hc
  exact Number.isHexDigit_of_mem_hexWordFull (List.mem_of_getLast? hc)

structure Margin where
  chars : List Char
  blank : ∀ c ∈ chars, Text.isBlank c
  oneLine : '\n' ∉ chars

structure Remark where
  chars : List Char
  sign : ∀ c ∈ chars.head?, c = '#'
  oneLine : '\n' ∉ chars

def Margin.empty : Margin :=
  ⟨[], List.forall_mem_nil _, List.not_mem_nil⟩

def Remark.empty : Remark :=
  ⟨[], by simp, List.not_mem_nil⟩

structure Entry where
  bytes : UInt64
  seed : UInt64
  count : UInt64
  replaced : Option UInt64

namespace Entry

def Valid (e : Entry) : Prop :=
  0 < e.bytes.toNat ∧ e.bytes.toNat % 8 = 0

instance (e : Entry) : Decidable e.Valid :=
  inferInstanceAs (Decidable (_ ∧ _))

def generated (e : Entry) : UInt64 :=
  streamHash (e.bytes.toNat / 8) (vectors e.seed (e.bytes.toNat / 8) e.count.toNat)

def hash (e : Entry) : UInt64 :=
  e.replaced.getD e.generated

def chars (e : Entry) : List Char :=
  (goldenLine e.bytes.toNat e.seed e.count.toNat e.hash).toList

def record (e : Entry) (line : Nat) : GoldenRecord :=
  ⟨e.bytes.toNat, e.seed, e.count.toNat, e.hash, line⟩

theorem chars_ne_nil (e : Entry) : e.chars ≠ [] := by
  intro hnil
  have hhead := head?_goldenLine e.bytes.toNat e.count.toNat e.seed e.hash
  rw [← chars, hnil] at hhead
  exact absurd hhead (by simp)

theorem parseLine_chars (e : Entry) (line : Nat) : parseLine e.chars line = .ok (e.record line) :=
  parseLine_goldenLine _ _ _ _ _

end Entry

structure Line where
  before : Margin
  entry : Option Entry
  after : Margin
  remark : Remark

namespace Line

def written (l : Line) : List Char :=
  l.entry.elim [] Entry.chars

def chars (l : Line) : List Char :=
  l.before.chars ++ (l.written ++ l.after.chars) ++ l.remark.chars

theorem not_mem_written (l : Line) {c : Char}
    (hlabel : c ∉ "bytes= seed=0x count= hash=0x".toList) (hdigit : ¬ Number.isHexDigit c) :
    c ∉ l.written := by
  unfold written
  cases l.entry with
  | none => exact List.not_mem_nil
  | some e => exact not_mem_goldenLine hlabel hdigit

theorem oneLine (l : Line) : '\n' ∉ l.chars := by
  have hwritten : '\n' ∉ l.written := l.not_mem_written (by decide) (by decide)
  simp [chars, l.before.oneLine, hwritten, l.after.oneLine, l.remark.oneLine]

theorem not_isBlank_ends (l : Line) :
    (∀ c ∈ l.written.head?, ¬ Text.isBlank c) ∧ ∀ c ∈ l.written.getLast?, ¬ Text.isBlank c := by
  unfold written
  cases l.entry with
  | none => simp
  | some e =>
    refine ⟨?_, ?_⟩
    · intro c hc
      obtain rfl : 'b' = c := by simpa [Entry.chars, head?_goldenLine] using hc
      decide
    · intro c hc
      have hdigit := isHexDigit_getLast?_goldenLine hc
      exact Number.not_isBlank_of_isHexMark (by simp [Number.isHexMark, hdigit])

theorem body_chars (l : Line) : body l.chars = l.written := by
  -- The first comment sign of the line is that of its remark.
  have hsign : ∀ c, Text.isBlank c → c ≠ '#' := by
    rintro c hc rfl
    exact absurd hc (by decide)
  have hwritten : '#' ∉ l.written := l.not_mem_written (by decide) (by decide)
  have hfront : ∀ c ∈ l.before.chars ++ (l.written ++ l.after.chars), decide (c ≠ '#') := by
    intro c hc
    simp only [List.mem_append] at hc
    rcases hc with hc | hc | hc
    · exact decide_eq_true (hsign c (l.before.blank c hc))
    · exact decide_eq_true (fun heq => hwritten (heq ▸ hc))
    · exact decide_eq_true (hsign c (l.after.blank c hc))
  have hremark : ∀ c ∈ l.remark.chars.head?, ¬ decide (c ≠ '#') := by
    intro c hc
    simp [l.remark.sign c hc]
  rw [body, chars, takeWhile_append_stop hfront hremark]
  exact Text.trim_margins l.before.blank l.after.blank l.not_isBlank_ends.1 l.not_isBlank_ends.2

end Line

abbrev Layout := List Line

namespace Layout

def chars (layout : Layout) : List Char :=
  ['\n'].intercalate (layout.map Line.chars)

def content (layout : Layout) : List UInt8 :=
  (String.ofList layout.chars).toUTF8.data.toList

def entries (layout : Layout) : List Entry :=
  layout.filterMap Line.entry

def numbered (layout : Layout) : List (Entry × Nat) :=
  (layout.zipIdx 1).filterMap fun l => l.1.entry.map (·, l.2)

def records (layout : Layout) : List GoldenRecord :=
  layout.numbered.map fun e => e.1.record e.2

theorem splitOn_chars {layout : Layout} (hne : layout ≠ []) :
    layout.chars.splitOn '\n' = layout.map Line.chars := by
  refine List.splitOn_intercalate '\n' ?_ (by simpa using hne)
  intro cs hcs
  obtain ⟨l, _, rfl⟩ := List.mem_map.1 hcs
  exact l.oneLine

theorem bodies_chars (layout : Layout) :
    bodies layout.chars = layout.numbered.map fun e => (e.1.chars, e.2) := by
  by_cases hne : layout = []
  · -- A layout without lines is the empty text, which is one empty line.
    subst hne
    rfl
  · rw [bodies, splitOn_chars hne, List.zipIdx_map, List.filterMap_map, numbered,
      List.map_filterMap]
    refine congrArg (List.filterMap · _) (funext fun ⟨l, line⟩ => ?_)
    simp only [Function.comp_apply, Prod.map_apply, id_eq, l.body_chars, Line.written]
    cases l.entry with
    | none => rfl
    | some e => simp [e.chars_ne_nil]

theorem parseChars_chars (layout : Layout) : parseChars layout.chars = .ok layout.records := by
  rw [parseChars, bodies_chars, List.mapM_map]
  simp only [Function.comp_def, Entry.parseLine_chars]
  exact List.mapM_pure

theorem fromUTF8?_content (layout : Layout) :
    String.fromUTF8? ⟨layout.content.toArray⟩ = some (String.ofList layout.chars) := by
  rw [content, Array.toArray_toList]
  simp only [String.fromUTF8?, String.toUTF8_eq_toByteArray,
    dif_pos (String.ofList layout.chars).isValidUTF8]
  rfl

end Layout

end Golden

namespace Tool

variable {path : String} {files : FileStore} {layout : Golden.Layout}

theorem run_loadGolden (hread : files.read path = .ok layout.content) (console : Console) :
    (loadGolden path).run.run ⟨files, console⟩ = (.ok layout.records, ⟨files, console⟩) := by
  rw [loadGolden, run_bind, run_get]
  simp only [hread, run_bind, run_orFail_ok, layout.fromUTF8?_content, Golden.parse,
    String.toList_ofList, layout.parseChars_chars]

end Tool

end AfuBench
