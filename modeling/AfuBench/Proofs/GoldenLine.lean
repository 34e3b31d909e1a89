import AfuBench.Golden.Parser
import AfuBench.Proofs.NumberGrammar

namespace AfuBench.Golden

structure Gap where
  chars : List Char
  nonempty : chars ≠ []
  spaces : ∀ c ∈ chars, Text.isSpace c

structure WrittenField where
  name : List Char
  numeral : List Char
  value : UInt64
  nonempty : name ≠ []
  letters : ∀ c ∈ name, isLetter c
  reads : Number.Reads numeral value

def WrittenField.chars (f : WrittenField) : List Char :=
  f.name ++ '=' :: f.numeral

def WrittenField.field (f : WrittenField) : Field :=
  ⟨f.name, f.value⟩

def spaced (fs : List (Gap × WrittenField)) : List Char :=
  fs.flatMap fun f => f.1.chars ++ f.2.chars

theorem not_isSpace_of_isLetter {c : Char} (hc : isLetter c) : ¬ Text.isSpace c := by
  intro hspace
  rcases Text.isSpace_iff.1 hspace with rfl | rfl <;> revert hc <;> decide

theorem WrittenField.not_isSpace_head (f : WrittenField) (rest : List Char) :
    ∀ c ∈ (f.chars ++ rest).head?, ¬ Text.isSpace c := by
  intro c hc
  cases hname : f.name with
  | nil => exact absurd hname f.nonempty
  | cons d ds =>
    have hd : d = c := by simpa [WrittenField.chars, hname] using hc
    exact hd ▸ not_isSpace_of_isLetter (f.letters d (by simp [hname]))

theorem dropWhile_spaces {spaces : List Char} (hspaces : ∀ c ∈ spaces, Text.isSpace c)
    (f : WrittenField) (rest : List Char) :
    (spaces ++ (f.chars ++ rest)).dropWhile Text.isSpace = f.chars ++ rest :=
  dropWhile_append_stop hspaces (f.not_isSpace_head rest)

theorem ends_of_spaces {spaces : List Char} (hspaces : ∀ c ∈ spaces, Text.isSpace c) :
    Number.Ends spaces :=
  fun c hc => hspaces c (List.mem_of_head? hc)

theorem ends_spaced (fs : List (Gap × WrittenField)) {trail : List Char}
    (htrail : ∀ c ∈ trail, Text.isSpace c) : Number.Ends (spaced fs ++ trail) := by
  cases fs with
  | nil => exact ends_of_spaces htrail
  | cons f fs =>
    intro c hc
    refine f.1.spaces c (List.mem_of_head? ?_)
    simpa [spaced, List.head?_append, f.1.nonempty] using hc

theorem length_le_spaced (fs : List (Gap × WrittenField)) : fs.length ≤ (spaced fs).length := by
  induction fs with
  | nil => exact Nat.zero_le _
  | cons f fs ih =>
    have hgap := List.length_pos_iff.2 f.1.nonempty
    simp only [spaced, List.flatMap_cons, List.length_append, List.length_cons] at ih ⊢
    omega

theorem field_chars (f : WrittenField) {rest : List Char} (hrest : Number.Ends rest) :
    field (f.chars ++ rest) = .ok (f.field, rest) := by
  have hstop : ∀ c ∈ ('=' :: (f.numeral ++ rest)).head?, ¬ isLetter c := by
    intro c hc
    obtain rfl : '=' = c := by simpa using hc
    decide
  have hname := takeWhile_append_stop f.letters hstop
  have hafter := dropWhile_append_stop f.letters hstop
  rw [field, WrittenField.chars, List.append_assoc, List.cons_append, hname, hafter,
    if_neg f.nonempty]
  simp only [fieldValue, f.reads rest hrest]
  rfl

theorem moreFields_spaces {trail : List Char} (htrail : ∀ c ∈ trail, Text.isSpace c)
    (steps : Nat) : moreFields steps trail = ([], trail) := by
  cases steps with
  | zero => rfl
  | succ steps =>
    have hrest : trail.dropWhile Text.isSpace = [] := List.dropWhile_eq_nil_iff.2 htrail
    rw [moreFields, hrest]
    split <;> rfl

theorem moreFields_spaced (fs : List (Gap × WrittenField)) {trail : List Char}
    (htrail : ∀ c ∈ trail, Text.isSpace c) {steps : Nat} (hsteps : fs.length ≤ steps) :
    moreFields steps (spaced fs ++ trail) = (fs.map (·.2.field), trail) := by
  induction fs generalizing steps with
  | nil => exact moreFields_spaces htrail steps
  | cons f fs ih =>
    obtain ⟨steps, rfl⟩ : ∃ k, steps = k + 1 :=
      ⟨steps - 1, by simp only [List.length_cons] at hsteps; omega⟩
    have hsplit : spaced (f :: fs) ++ trail = f.1.chars ++ (f.2.chars ++ (spaced fs ++ trail)) := by
      simp [spaced]
    have hgap : (f.1.chars ++ (f.2.chars ++ (spaced fs ++ trail))).takeWhile Text.isSpace =
        f.1.chars :=
      takeWhile_append_stop f.1.spaces (f.2.not_isSpace_head _)
    -- What follows a field is a gap or the blanks at the end, so its numeral ends there.
    rw [hsplit, moreFields, hgap, dropWhile_spaces f.1.spaces, if_neg f.1.nonempty,
      field_chars f.2 (ends_spaced fs htrail)]
    simp only [ih (Nat.le_of_succ_le_succ hsteps), List.map_cons]

theorem fields_spaced {lead trail : List Char} (hlead : ∀ c ∈ lead, Text.isSpace c)
    (htrail : ∀ c ∈ trail, Text.isSpace c) (f : WrittenField) (fs : List (Gap × WrittenField)) :
    fields (lead ++ (f.chars ++ (spaced fs ++ trail))) = .ok (f.field :: fs.map (·.2.field)) := by
  have hsteps : fs.length ≤ (spaced fs ++ trail).length := by
    have := length_le_spaced fs
    rw [List.length_append]
    omega
  have hend : trail.dropWhile Text.isSpace = [] := List.dropWhile_eq_nil_iff.2 htrail
  rw [fields, dropWhile_spaces hlead, field_chars f (ends_spaced fs htrail)]
  simp only [bind, Except.bind, moreFields_spaced fs htrail hsteps, hend]
  rfl

def WrittenField.ofKey (key : Key) (numeral : List Char) (value : UInt64)
    (reads : Number.Reads numeral value) : WrittenField where
  name := key.name.toList
  numeral := numeral
  value := value
  nonempty := by cases key <;> decide
  letters := by cases key <;> exact List.all_eq_true.1 (by decide)
  reads := reads

def Gap.blank : Gap where
  chars := [' ']
  nonempty := by decide
  spaces := List.all_eq_true.1 (by decide)

theorem toList_goldenLine (bytes seed count hash : UInt64) :
    (goldenLine bytes.toNat seed count.toNat hash).toList =
      (WrittenField.ofKey .bytes _ _ (Number.reads_decimal bytes)).chars ++
        spaced [(.blank, .ofKey .seed _ _ (Number.reads_hexWord seed)),
          (.blank, .ofKey .count _ _ (Number.reads_decimal count)),
          (.blank, .ofKey .hash _ _ (Number.reads_hexWordFull hash))] := by
  simp [goldenLine, spaced, WrittenField.chars, WrittenField.ofKey, Gap.blank, Key.name]

theorem parseLine_goldenLine (bytes seed count hash : UInt64) (line : Nat) :
    parseLine (goldenLine bytes.toNat seed count.toNat hash).toList line =
      .ok ⟨bytes.toNat, seed, count.toNat, hash, line⟩ := by
  have hread := fields_spaced (List.forall_mem_nil _) (List.forall_mem_nil _)
    (.ofKey .bytes _ _ (Number.reads_decimal bytes))
    [(.blank, .ofKey .seed _ _ (Number.reads_hexWord seed)),
      (.blank, .ofKey .count _ _ (Number.reads_decimal count)),
      (.blank, .ofKey .hash _ _ (Number.reads_hexWordFull hash))]
  rw [List.nil_append, List.append_nil, ← toList_goldenLine] at hread
  rw [parseLine, hread]
  rfl

end AfuBench.Golden
