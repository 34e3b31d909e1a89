import AfuBench.Proofs.GoldenLine
import AfuBench.Proofs.Outcomes

namespace AfuBench.Golden

def tokens (cs : List Char) : List (List Char) :=
  (cs.splitOnP Text.isSpace).filter fun token => !token.isEmpty

theorem tokens_nil : tokens [] = [] := rfl

theorem tokens_cons_space {c : Char} (hc : Text.isSpace c) (cs : List Char) :
    tokens (c :: cs) = tokens cs := by
  rw [tokens, List.splitOnP_cons_eq_if_modifyHead, if_pos hc]
  rfl

theorem tokens_spaces_append {spaces : List Char} (hspaces : ∀ c ∈ spaces, Text.isSpace c)
    (cs : List Char) : tokens (spaces ++ cs) = tokens cs := by
  induction spaces with
  | nil => rfl
  | cons c spaces ih =>
    rw [List.cons_append, tokens_cons_space (hspaces c List.mem_cons_self),
      ih fun d hd => hspaces d (List.mem_cons_of_mem c hd)]

theorem tokens_spaces {spaces : List Char} (hspaces : ∀ c ∈ spaces, Text.isSpace c) :
    tokens spaces = [] := by
  rw [← List.append_nil spaces, tokens_spaces_append hspaces, tokens_nil]

theorem tokens_append {token rest : List Char} (hne : token ≠ [])
    (hsolid : ∀ c ∈ token, ¬ Text.isSpace c) (hrest : Number.Ends rest) :
    tokens (token ++ rest) = token :: tokens rest := by
  have hfalse : ∀ c ∈ token, Text.isSpace c = false := fun c hc => eq_false_of_ne_true (hsolid c hc)
  cases rest with
  | nil =>
    rw [List.append_nil, tokens, List.splitOnP_eq_singleton hfalse]
    simp [hne, tokens_nil]
  | cons c rest =>
    have hc : Text.isSpace c := hrest c rfl
    rw [tokens_cons_space hc, tokens, List.splitOnP_append_cons_of_forall_mem hfalse c hc]
    simp [hne, tokens]

theorem tokens_eq_cons_iff {cs token : List Char} {ts : List (List Char)} :
    tokens cs = token :: ts ↔
      ∃ lead rest, cs = lead ++ (token ++ rest) ∧ (∀ c ∈ lead, Text.isSpace c) ∧ token ≠ [] ∧
        (∀ c ∈ token, ¬ Text.isSpace c) ∧ Number.Ends rest ∧ tokens rest = ts := by
  constructor
  · intro h
    obtain ⟨lead, body, rfl, hlead, hbody⟩ := exists_front Text.isSpace cs
    obtain ⟨word, rest, rfl, hword, hrest⟩ := exists_front (fun c => !Text.isSpace c) body
    have hsolid : ∀ c ∈ word, ¬ Text.isSpace c := by simpa using hword
    have hends : Number.Ends rest := by simpa [Number.Ends] using hrest
    rw [tokens_spaces_append hlead] at h
    cases word with
    | nil =>
      -- Behind the leading spaces there is a character that is none, or nothing at all.
      cases rest with
      | nil => exact absurd h (by simp [tokens_nil])
      | cons c rest => exact absurd (hends c rfl) (hbody c rfl)
    | cons c word =>
      rw [tokens_append (List.cons_ne_nil c word) hsolid hends] at h
      obtain ⟨rfl, rfl⟩ := List.cons.inj h
      exact ⟨lead, rest, rfl, hlead, List.cons_ne_nil c word, hsolid, hends, rfl⟩
  · rintro ⟨lead, rest, rfl, hlead, hne, hsolid, hrest, rfl⟩
    rw [tokens_spaces_append hlead, tokens_append hne hsolid hrest]

theorem isSpace_of_tokens_eq_nil {cs : List Char} (h : tokens cs = []) :
    ∀ c ∈ cs, Text.isSpace c := by
  obtain ⟨lead, rest, rfl, hlead, hrest⟩ := exists_front Text.isSpace cs
  cases rest with
  | nil => simpa using hlead
  | cons c rest =>
    obtain ⟨word, tail, hsplit, hword, htail⟩ := exists_front (fun c => !Text.isSpace c) (c :: rest)
    have hne : word ≠ [] := by
      rintro rfl
      rw [List.nil_append] at hsplit
      have hc := htail c (by rw [← hsplit]; rfl)
      exact hrest c rfl (by simpa using hc)
    rw [tokens_spaces_append hlead, hsplit,
      tokens_append hne (by simpa using hword) (by simpa [Number.Ends] using htail)] at h
    exact absurd h (List.cons_ne_nil _ _)

theorem WrittenField.chars_ne_nil (f : WrittenField) : f.chars ≠ [] := by
  simp [WrittenField.chars]

theorem WrittenField.not_isSpace (f : WrittenField) : ∀ c ∈ f.chars, ¬ Text.isSpace c := by
  intro c hc
  rw [WrittenField.chars, List.mem_append, List.mem_cons] at hc
  rcases hc with hname | rfl | hnumeral
  · exact not_isSpace_of_isLetter (f.letters c hname)
  · decide
  · intro hspace
    exact (Number.reads_iff.1 f.reads).not_isBlank c hnumeral (Text.isBlank_of_isSpace hspace)

variable {cs rest : List Char} {fs : List Field}

theorem tokens_written (f : WrittenField) (hrest : Number.Ends rest) :
    tokens (f.chars ++ rest) = f.chars :: tokens rest :=
  tokens_append f.chars_ne_nil f.not_isSpace hrest

theorem tokens_spaced (ws : List (Gap × WrittenField)) {trail : List Char}
    (htrail : ∀ c ∈ trail, Text.isSpace c) :
    tokens (spaced ws ++ trail) = ws.map (·.2.chars) := by
  induction ws with
  | nil => exact tokens_spaces htrail
  | cons w ws ih =>
    have hsplit : spaced (w :: ws) ++ trail = w.1.chars ++ (w.2.chars ++ (spaced ws ++ trail)) := by
      simp [spaced]
    rw [hsplit, tokens_spaces_append w.1.spaces, tokens_written w.2 (ends_spaced ws htrail), ih,
      List.map_cons]

theorem exists_spaced (ws : List WrittenField) (hrest : Number.Ends rest)
    (h : tokens rest = ws.map WrittenField.chars) :
    ∃ gs trail, rest = spaced gs ++ trail ∧ (∀ c ∈ trail, Text.isSpace c) ∧ gs.map (·.2) = ws := by
  induction ws generalizing rest with
  | nil => exact ⟨[], rest, rfl, isSpace_of_tokens_eq_nil h, rfl⟩
  | cons w ws ih =>
    obtain ⟨lead, tail, rfl, hlead, _, hsolid, htail, hts⟩ := tokens_eq_cons_iff.1 h
    obtain ⟨gs, trail, rfl, htrail, rfl⟩ := ih htail hts
    have hne : lead ≠ [] := by
      rintro rfl
      cases hchars : w.chars with
      | nil => exact w.chars_ne_nil hchars
      | cons c cs => exact hsolid c (by simp [hchars]) (hrest c (by simp [hchars]))
    exact ⟨(⟨lead, hne, hlead⟩, w) :: gs, trail, by simp [spaced], htrail, rfl⟩

theorem fieldValue_eq_ok_iff {found : UInt64 × List Char} :
    fieldValue cs = .ok found ↔ Number.literal cs = .ok found := by
  rw [fieldValue]
  cases Number.literal cs with
  | ok held => simp
  | error fault => cases fault <;> simp

theorem exists_writtenField {f : Field} (h : field cs = .ok (f, rest)) :
    ∃ w : WrittenField, w.field = f ∧ cs = w.chars ++ rest := by
  simp only [field] at h
  split at h
  · exact absurd h (by simp)
  · next hname =>
    split at h
    · next after hafter =>
      obtain ⟨⟨v, tail⟩, hvalue, heq⟩ := map_eq_ok_iff.1 h
      obtain ⟨rfl, rfl⟩ := Prod.mk.inj heq
      obtain ⟨numeral, rfl, hnumeral⟩ := Number.exists_numeral (fieldValue_eq_ok_iff.1 hvalue)
      obtain ⟨hsplit, hletters, _⟩ := takeWhile_dropWhile_iff.1 ⟨rfl, hafter⟩
      refine ⟨⟨_, numeral, v, hname, hletters, hnumeral.reads⟩, rfl, ?_⟩
      rw [WrittenField.chars, List.append_assoc, List.cons_append]
      exact hsplit
    · exact absurd h (by simp)

theorem exists_spaced_of_moreFields (steps : Nat) (h : moreFields steps cs = (fs, rest)) :
    ∃ ws, cs = spaced ws ++ rest ∧ fs = ws.map (·.2.field) := by
  induction steps generalizing cs fs with
  | zero =>
    obtain ⟨rfl, rfl⟩ := Prod.mk.inj h
    exact ⟨[], rfl, rfl⟩
  | succ steps ih =>
    rw [moreFields] at h
    split at h
    · obtain ⟨rfl, rfl⟩ := Prod.mk.inj h
      exact ⟨[], rfl, rfl⟩
    · next hgap =>
      split at h
      · obtain ⟨rfl, rfl⟩ := Prod.mk.inj h
        exact ⟨[], rfl, rfl⟩
      · next f tail hfield =>
        rcases hmore : moreFields steps tail with ⟨more, last⟩
        rw [hmore] at h
        obtain ⟨rfl, rfl⟩ := Prod.mk.inj h
        obtain ⟨ws, rfl, rfl⟩ := ih hmore
        obtain ⟨w, rfl, hw⟩ := exists_writtenField hfield
        let gap : Gap := ⟨cs.takeWhile Text.isSpace, hgap, fun _ => List.mem_takeWhile_imp⟩
        refine ⟨(gap, w) :: ws, ?_, rfl⟩
        calc cs = cs.takeWhile Text.isSpace ++ cs.dropWhile Text.isSpace :=
              List.takeWhile_append_dropWhile.symm
          _ = _ := by simp [hw, spaced, gap]

theorem exists_layout_of_fields (h : fields cs = .ok fs) :
    ∃ (lead : List Char) (w : WrittenField) (ws : List (Gap × WrittenField)) (trail : List Char),
      cs = lead ++ (w.chars ++ (spaced ws ++ trail)) ∧
      (∀ c ∈ lead, Text.isSpace c) ∧ (∀ c ∈ trail, Text.isSpace c) ∧
      fs = w.field :: ws.map (·.2.field) := by
  obtain ⟨⟨f, tail⟩, hfield, hrest⟩ := bind_eq_ok_iff.1 h
  obtain ⟨w, rfl, hw⟩ := exists_writtenField hfield
  rcases hmore : moreFields tail.length tail with ⟨more, last⟩
  obtain ⟨ws, hws, rfl⟩ := exists_spaced_of_moreFields _ hmore
  simp only [hmore] at hrest
  split at hrest
  · next hend =>
    refine ⟨cs.takeWhile Text.isSpace, w, ws, last, ?_, fun _ => List.mem_takeWhile_imp,
      List.dropWhile_eq_nil_iff.1 hend, (Except.ok.inj hrest).symm⟩
    rw [← hws, ← hw, List.takeWhile_append_dropWhile]
  · exact absurd hrest (by simp)

theorem fields_eq_ok_iff :
    fields cs = .ok fs ↔ ∃ ws : List WrittenField, ws ≠ [] ∧ tokens cs = ws.map WrittenField.chars ∧
      fs = ws.map WrittenField.field := by
  constructor
  · intro h
    obtain ⟨lead, w, ws, trail, rfl, hlead, htrail, rfl⟩ := exists_layout_of_fields h
    refine ⟨w :: ws.map (·.2), List.cons_ne_nil _ _, ?_, by simp⟩
    rw [tokens_spaces_append hlead, tokens_written w (ends_spaced ws htrail),
      tokens_spaced ws htrail]
    simp
  · rintro ⟨ws, hne, htokens, rfl⟩
    cases ws with
    | nil => exact absurd rfl hne
    | cons w ws =>
      obtain ⟨lead, rest, rfl, hlead, _, _, hrest, hts⟩ := tokens_eq_cons_iff.1 htokens
      obtain ⟨gs, trail, rfl, htrail, rfl⟩ := exists_spaced ws hrest hts
      rw [fields_spaced hlead htrail]
      simp

end AfuBench.Golden
