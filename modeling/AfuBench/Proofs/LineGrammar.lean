import AfuBench.Proofs.FieldTokens
import Mathlib.Data.List.Forall2
import Mathlib.Data.List.Nodup
import Mathlib.Data.List.Perm.Basic

namespace AfuBench.Golden

theorem exists_map_of_perm {α β : Type} {f : α → β} {xs : List α} {ys : List β}
    (h : ys.Perm (xs.map f)) : ∃ zs : List α, ys = zs.map f ∧ zs.Perm xs := by
  change Relation.Comp (· = List.map f ·) List.Perm ys xs
  rwa [List.eq_map_comp_perm]

theorem lookup_eq_some_iff_mem {κ β : Type} [DecidableEq κ] {entries : List (κ × β)} {k : κ} {v : β}
    (hnodup : (entries.map (·.1)).Nodup) : entries.lookup k = some v ↔ (k, v) ∈ entries := by
  induction entries with
  | nil => simp
  | cons entry entries ih =>
    obtain ⟨key, held⟩ := entry
    rw [List.map_cons, List.nodup_cons] at hnodup
    by_cases hk : k = key
    · subst hk
      have hother : (k, v) ∉ entries := fun hmem =>
        hnodup.1 (List.mem_map.2 ⟨_, hmem, rfl⟩)
      simp [hother, eq_comm]
    · have hskip : (k == key) = false := by simpa using hk
      rw [List.lookup_cons, hskip]
      simp [ih hnodup.2, hk]

def keyNames : List (List Char) :=
  ["bytes".toList, "seed".toList, "count".toList, "hash".toList]

theorem map_name_all : Key.all.map (·.name.toList) = keyNames := rfl

theorem Key.mem_all (key : Key) : key ∈ Key.all := by
  cases key <;> decide

def Key.select {α : Type} (bytes seed count hash : α) (key : Key) : α :=
  key.casesOn bytes seed count hash

theorem Key.exists_map_all {α : Type} {xs : List α} (h : xs.length = all.length) :
    ∃ f : Key → α, xs = all.map f :=
  match xs, h with
  | [a, b, c, d], _ => ⟨Key.select a b c d, rfl⟩

theorem Key.name_injective {a b : Key} (h : a.name.toList = b.name.toList) : a = b := by
  cases a <;> cases b <;> first | rfl | exact absurd h (by decide)

theorem Key.ofName?_eq_some_iff {name : List Char} {key : Key} :
    Key.ofName? name = some key ↔ name = key.name.toList := by
  constructor
  · intro h
    simpa [eq_comm] using List.find?_some h
  · rintro rfl
    cases key <;> rfl

theorem Key.ofName?_eq_none_iff {name : List Char} : Key.ofName? name = none ↔ name ∉ keyNames := by
  rw [Key.ofName?, List.find?_eq_none, ← map_name_all]
  simp [eq_comm]

def entryField (entry : Key × UInt64) : Field :=
  ⟨entry.1.name.toList, entry.2⟩

def entryName (entry : Key × UInt64) : List Char :=
  entry.1.name.toList

theorem lookup_isSome_iff {found : List (Key × UInt64)} {key : Key} :
    (found.lookup key).isSome ↔ key ∈ found.map (·.1) := by
  rw [List.lookup_isSome_iff, List.mem_map]
  exact exists_congr fun entry => and_congr_right fun _ => by rw [beq_iff_eq, eq_comm]

variable {fs : List Field} {found out : List (Key × UInt64)}

theorem assign_eq_ok_iff (hfound : (found.map (·.1)).Nodup) :
    assign fs found = .ok out ↔
      ∃ entries : List (Key × UInt64), fs = entries.map entryField ∧
        out = entries.reverse ++ found ∧ (out.map (·.1)).Nodup := by
  induction fs generalizing found with
  | nil =>
    constructor
    · intro h
      obtain rfl := Except.ok.inj h
      exact ⟨[], rfl, rfl, hfound⟩
    · rintro ⟨entries, hfs, rfl, _⟩
      rw [List.map_eq_nil_iff.1 hfs.symm]
      rfl
  | cons f fs ih =>
    rw [assign]
    constructor
    · intro h
      split at h
      · exact absurd h (by simp)
      · next key hkey =>
        split at h
        · exact absurd h (by simp)
        · next hfree =>
          rw [lookup_isSome_iff] at hfree
          have hnew : (((key, f.value) :: found).map (·.1)).Nodup :=
            List.nodup_cons.2 ⟨hfree, hfound⟩
          obtain ⟨entries, rfl, rfl, hnodup⟩ := (ih hnew).1 h
          refine ⟨(key, f.value) :: entries, ?_, by simp, hnodup⟩
          rw [List.map_cons, entryField, ← Key.ofName?_eq_some_iff.1 hkey]
    · rintro ⟨entries, hfs, hout, hnodup⟩
      obtain ⟨entry, entries, rfl, rfl, rfl⟩ := List.map_eq_cons_iff.1 hfs.symm
      rw [List.reverse_cons, List.append_assoc, List.singleton_append] at hout
      have hrest : ((entry :: found).map (·.1)).Nodup := by
        rw [hout, List.map_append] at hnodup
        exact hnodup.of_append_right
      have hfree : entry.1 ∉ found.map (·.1) := (List.nodup_cons.1 hrest).1
      rw [← lookup_isSome_iff] at hfree
      have hkey : Key.ofName? (entryField entry).name = some entry.1 :=
        Key.ofName?_eq_some_iff.2 rfl
      simp only [hkey, hfree]
      exact (ih hrest).2 ⟨entries, rfl, hout, hnodup⟩

theorem assign_eq_error {fault : Fault} (h : assign fs found = .error fault) :
    (∃ name ∈ fs.map (·.name), name ∉ keyNames ∧ fault = .unknown name) ∨
      ∃ key, 2 ≤ (found.map entryName ++ fs.map (·.name)).count key.name.toList ∧
        fault = .duplicate key := by
  induction fs generalizing found with
  | nil => exact absurd h (by simp [assign])
  | cons f fs ih =>
    rw [assign] at h
    split at h
    · next hkey =>
      exact .inl ⟨f.name, by simp, Key.ofName?_eq_none_iff.1 hkey, (Except.error.inj h).symm⟩
    · next key hkey =>
      have hname := Key.ofName?_eq_some_iff.1 hkey
      split at h
      · next htaken =>
        obtain ⟨entry, hentry, rfl⟩ := List.mem_map.1 (lookup_isSome_iff.1 htaken)
        have hbefore : 0 < (found.map entryName).count entry.1.name.toList :=
          List.count_pos_iff.2 (List.mem_map_of_mem hentry)
        refine .inr ⟨entry.1, ?_, (Except.error.inj h).symm⟩
        rw [List.count_append, List.map_cons, hname, List.count_cons_self]
        omega
      · rcases ih h with ⟨name, hmem, hunknown⟩ | ⟨twice, hcount, hfault⟩
        · exact .inl ⟨name, List.mem_cons_of_mem _ hmem, hunknown⟩
        · refine .inr ⟨twice, ?_, hfault⟩
          rw [List.map_cons, List.cons_append, entryName, ← hname] at hcount
          rwa [List.map_cons, List.perm_middle.count_eq]

theorem require_eq_ok_iff {key : Key} {v : UInt64} :
    require found key = .ok v ↔ found.lookup key = some v := by
  rw [require]
  cases found.lookup key <;> simp

theorem require_eq_error_iff {key : Key} {fault : Fault} :
    require found key = .error fault ↔ key ∉ found.map (·.1) ∧ fault = .missing key := by
  rw [← lookup_isSome_iff, require]
  cases found.lookup key <;> simp [eq_comm]

theorem perm_all_of_lookup {v : Key → UInt64} (hnodup : (found.map (·.1)).Nodup)
    (hv : ∀ key, found.lookup key = some (v key)) :
    found.Perm (Key.all.map fun key => (key, v key)) := by
  have hkeys : (Key.all.map fun key => (key, v key)).map (·.1) = Key.all := rfl
  have hall : Key.all.Nodup := by decide
  refine (List.perm_ext_iff_of_nodup (hnodup.of_map _) ((hkeys ▸ hall).of_map _)).2 ?_
  rintro ⟨key, w⟩
  rw [← lookup_eq_some_iff_mem hnodup, hv, List.mem_map]
  constructor
  · rintro heq
    exact ⟨key, key.mem_all, by rw [Option.some.inj heq]⟩
  · rintro ⟨other, _, heq⟩
    obtain ⟨rfl, rfl⟩ := Prod.mk.inj heq
    rfl

theorem nodup_of_perm_all {v : Key → UInt64}
    (h : found.Perm (Key.all.map fun key => (key, v key))) : (found.map (·.1)).Nodup := by
  have hkeys : (found.map (·.1)).Perm Key.all := h.map (·.1)
  exact hkeys.nodup_iff.2 (by decide)

theorem lookup_of_perm_all {v : Key → UInt64}
    (h : found.Perm (Key.all.map fun key => (key, v key))) (key : Key) :
    found.lookup key = some (v key) := by
  rw [lookup_eq_some_iff_mem (nodup_of_perm_all h), h.mem_iff]
  exact List.mem_map_of_mem key.mem_all

def recordOf (v : Key → UInt64) (line : Nat) : GoldenRecord :=
  ⟨(v .bytes).toNat, v .seed, (v .count).toNat, v .hash, line⟩

theorem assign_empty_eq_ok_iff :
    assign fs [] = .ok out ↔
      ∃ entries : List (Key × UInt64), fs = entries.map entryField ∧ out = entries.reverse ∧
        (out.map (·.1)).Nodup := by
  have hempty : (([] : List (Key × UInt64)).map (·.1)).Nodup := List.nodup_nil
  rw [assign_eq_ok_iff hempty]
  simp only [List.append_nil]

theorem ofFields_eq_ok_iff {line : Nat} {r : GoldenRecord} :
    ofFields fs line = .ok r ↔
      ∃ v : Key → UInt64, fs.Perm (Key.all.map fun key => ⟨key.name.toList, v key⟩) ∧
        r = recordOf v line := by
  have hmap (v : Key → UInt64) : Key.all.map (fun key => (⟨key.name.toList, v key⟩ : Field)) =
      (Key.all.map fun key => (key, v key)).map entryField := rfl
  constructor
  · intro h
    simp only [ofFields, bind_eq_ok_iff, require_eq_ok_iff] at h
    obtain ⟨found, hassign, bytes, hbytes, seed, hseed, count, hcount, hash, hhash, h⟩ := h
    obtain ⟨entries, rfl, rfl, hnodup⟩ := assign_empty_eq_ok_iff.1 hassign
    have hv : ∀ key, entries.reverse.lookup key = some (Key.select bytes seed count hash key) := by
      intro key
      cases key <;> assumption
    refine ⟨Key.select bytes seed count hash, ?_, (Except.ok.inj h).symm⟩
    rw [hmap]
    exact ((List.reverse_perm entries).symm.trans (perm_all_of_lookup hnodup hv)).map entryField
  · rintro ⟨v, hperm, rfl⟩
    rw [hmap] at hperm
    obtain ⟨entries, rfl, hentries⟩ := exists_map_of_perm hperm
    have hfound := (List.reverse_perm entries).trans hentries
    have hassign : assign (entries.map entryField) [] = .ok entries.reverse :=
      assign_empty_eq_ok_iff.2 ⟨entries, rfl, rfl, nodup_of_perm_all hfound⟩
    have hlookup := lookup_of_perm_all hfound
    simp only [ofFields, bind_eq_ok_iff, require_eq_ok_iff]
    exact ⟨_, hassign, _, hlookup .bytes, _, hlookup .seed, _, hlookup .count, _, hlookup .hash,
      rfl⟩

def Fault.Fits (names : List (List Char)) : Fault → Prop
  | .malformed _ _ => names = []
  | .unknown name => name ∈ names ∧ name ∉ keyNames
  | .duplicate key => 2 ≤ names.count key.name.toList
  | .missing key => key.name.toList ∉ names

theorem fits_missing {key : Key} (hassign : assign fs [] = .ok found)
    (hfree : key ∉ found.map (·.1)) : (Fault.missing key).Fits (fs.map (·.name)) := by
  obtain ⟨entries, rfl, rfl, _⟩ := assign_empty_eq_ok_iff.1 hassign
  intro hmem
  rw [List.map_map] at hmem
  obtain ⟨entry, hentry, hname⟩ := List.mem_map.1 hmem
  apply hfree
  rw [← Key.name_injective hname]
  exact List.mem_map.2 ⟨entry, List.mem_reverse.2 hentry, rfl⟩

theorem fits_of_ofFields {line : Nat} {fault : Fault} (h : ofFields fs line = .error fault) :
    fault.Fits (fs.map (·.name)) := by
  simp only [ofFields, bind_eq_error_iff, require_eq_error_iff] at h
  rcases h with h | ⟨found, hassign, ⟨hfree, rfl⟩ | ⟨_, _, ⟨hfree, rfl⟩ | ⟨_, _, ⟨hfree, rfl⟩ |
    ⟨_, _, ⟨hfree, rfl⟩ | ⟨_, _, h⟩⟩⟩⟩⟩
  · rcases assign_eq_error h with ⟨name, hmem, hunknown, rfl⟩ | ⟨key, hcount, rfl⟩
    · exact ⟨hmem, hunknown⟩
    · exact hcount
  · exact fits_missing hassign hfree
  · exact fits_missing hassign hfree
  · exact fits_missing hassign hfree
  · exact fits_missing hassign hfree
  · nomatch h

variable {cs : List Char} {line : Nat}

theorem parseLine_eq_ok_iff {r : GoldenRecord} :
    parseLine cs line = .ok r ↔ ∃ fs, fields cs = .ok fs ∧ ofFields fs line = .ok r := by
  rw [parseLine]
  cases fields cs with
  | error e => simp
  | ok fs => cases hfs : ofFields fs line <;> simp [hfs]

theorem parseLine_eq_error {fault : Fault} (hfields : fields cs = .ok fs)
    (hfault : ofFields fs line = .error fault) : parseLine cs line = .error ⟨line, fault⟩ := by
  rw [parseLine, hfields]
  simp only [hfault]

theorem WrittenField.of_field {w : WrittenField} {name : List Char} {v : UInt64}
    (h : w.field = ⟨name, v⟩) :
    w.chars = name ++ '=' :: w.numeral ∧ Number.Numeral w.numeral v := by
  obtain ⟨rfl, rfl⟩ := Field.mk.inj h
  exact ⟨rfl, Number.reads_iff.1 w.reads⟩

def keyTokens (numeral : Key → List Char) : List (List Char) :=
  Key.all.map fun key => key.name.toList ++ '=' :: numeral key

theorem parseLine_eq_ok_iff_tokens {r : GoldenRecord} :
    parseLine cs line = .ok r ↔
      ∃ (numeral : Key → List Char) (v : Key → UInt64),
        (∀ key, Number.Numeral (numeral key) (v key)) ∧ (tokens cs).Perm (keyTokens numeral) ∧
        r = recordOf v line := by
  rw [parseLine_eq_ok_iff]
  constructor
  · rintro ⟨_, hfields, hrecord⟩
    obtain ⟨ws, _, htokens, rfl⟩ := fields_eq_ok_iff.1 hfields
    obtain ⟨v, hperm, rfl⟩ := ofFields_eq_ok_iff.1 hrecord
    obtain ⟨zs, hzs, hws⟩ := exists_map_of_perm hperm.symm
    have hlength : zs.length = Key.all.length := by simpa using (congrArg List.length hzs).symm
    obtain ⟨w, rfl⟩ := Key.exists_map_all hlength
    rw [List.map_map, List.map_inj_left] at hzs
    have hw (key : Key) := WrittenField.of_field (hzs key key.mem_all).symm
    refine ⟨fun key => (w key).numeral, v, fun key => (hw key).2, ?_, rfl⟩
    have hchars :
        (Key.all.map w).map WrittenField.chars = keyTokens fun key => (w key).numeral := by
      rw [List.map_map, keyTokens]
      exact List.map_congr_left fun key _ => (hw key).1
    rw [htokens, ← hchars]
    exact hws.symm.map _
  · rintro ⟨numeral, v, hnumeral, hperm, rfl⟩
    let w (key : Key) : WrittenField := .ofKey key (numeral key) (v key) (hnumeral key).reads
    have hchars : keyTokens numeral = (Key.all.map w).map WrittenField.chars := rfl
    rw [hchars] at hperm
    obtain ⟨ws, htokens, hws⟩ := exists_map_of_perm hperm
    refine ⟨_, fields_eq_ok_iff.2 ⟨ws, ?_, htokens, rfl⟩,
      ofFields_eq_ok_iff.2 ⟨v, hws.map WrittenField.field, rfl⟩⟩
    rintro rfl
    exact absurd hws.length_eq (by simp [Key.all])

def SameField (s t : List Char) : Prop :=
  ∃ (name m n : List Char) (v : UInt64), (∀ c ∈ name, isLetter c) ∧ s = name ++ '=' :: m ∧
    t = name ++ '=' :: n ∧ Number.Numeral m v ∧ Number.Numeral n v

def Respelled (ss ts : List (List Char)) : Prop :=
  ∃ us, ss.Perm us ∧ List.Forall₂ SameField us ts

theorem eq_of_named {name other m n : List Char} (hname : ∀ c ∈ name, isLetter c)
    (hother : ∀ c ∈ other, isLetter c) (h : name ++ '=' :: m = other ++ '=' :: n) :
    name = other ∧ m = n := by
  have hstop (cs : List Char) : ∀ c ∈ ('=' :: cs).head?, ¬ isLetter c := by
    intro c hc
    obtain rfl : '=' = c := by simpa using hc
    decide
  have hnames := takeWhile_append_stop hname (hstop m)
  rw [h, takeWhile_append_stop hother (hstop n)] at hnames
  subst hnames
  exact ⟨rfl, (List.cons.inj (List.append_cancel_left h)).2⟩

theorem Key.isLetter_name (key : Key) : ∀ c ∈ key.name.toList, isLetter c := by
  cases key <;> exact List.all_eq_true.1 (by decide)

theorem SameField.of_key {key : Key} {numeral t : List Char} {v : UInt64}
    (h : SameField (key.name.toList ++ '=' :: numeral) t) (hv : Number.Numeral numeral v) :
    ∃ n, t = key.name.toList ++ '=' :: n ∧ Number.Numeral n v := by
  obtain ⟨name, m, n, w, hname, hs, rfl, hm, hn⟩ := h
  obtain ⟨rfl, rfl⟩ := eq_of_named key.isLetter_name hname hs
  exact ⟨n, rfl, hv.unique hm ▸ hn⟩

theorem parseLine_respelled {ds : List Char} {r : GoldenRecord}
    (h : Respelled (tokens cs) (tokens ds)) (hcs : parseLine cs line = .ok r) :
    parseLine ds line = .ok r := by
  obtain ⟨numeral, v, hnumeral, hperm, rfl⟩ := parseLine_eq_ok_iff_tokens.1 hcs
  obtain ⟨us, hus, hsame⟩ := h
  obtain ⟨ts, hts, hds⟩ := List.perm_comp_forall₂ (hperm.symm.trans hus) hsame
  obtain ⟨t, rfl⟩ := Key.exists_map_all hts.length_eq.symm
  rw [keyTokens, List.forall₂_map_left_iff, List.forall₂_map_right_iff, List.forall₂_same] at hts
  choose n hn hv using fun key => (hts key key.mem_all).of_key (hnumeral key)
  refine parseLine_eq_ok_iff_tokens.2 ⟨n, v, hv, ?_, rfl⟩
  rw [keyTokens, ← funext hn]
  exact hds.symm

def IsField (token name : List Char) : Prop :=
  ∃ (numeral : List Char) (v : UInt64), name ≠ [] ∧ (∀ c ∈ name, isLetter c) ∧
    token = name ++ '=' :: numeral ∧ Number.Numeral numeral v

theorem exists_written_of_isField {ts names : List (List Char)}
    (h : List.Forall₂ IsField ts names) :
    ∃ ws : List WrittenField, ts = ws.map WrittenField.chars ∧ names = ws.map (·.name) := by
  induction h with
  | nil => exact ⟨[], rfl, rfl⟩
  | cons hfield _ ih =>
    obtain ⟨numeral, v, hne, hletters, rfl, hnumeral⟩ := hfield
    obtain ⟨ws, rfl, rfl⟩ := ih
    exact ⟨⟨_, numeral, v, hne, hletters, hnumeral.reads⟩ :: ws, rfl, rfl⟩

def Unfit (names : List (List Char)) : Prop :=
  (∃ name ∈ names, name ∉ keyNames) ∨ ¬ names.Nodup ∨ ∃ name ∈ keyNames, name ∉ names

theorem not_unfit_of_perm {names : List (List Char)} (h : names.Perm keyNames) : ¬ Unfit names := by
  rintro (⟨name, hmem, hother⟩ | htwice | ⟨name, hmem, hother⟩)
  · exact hother (h.mem_iff.1 hmem)
  · exact htwice (h.nodup_iff.2 (by decide))
  · exact hother (h.mem_iff.2 hmem)

theorem exists_malformed (hcs : tokens cs = []) (line : Nat) :
    ∃ rest stop, parseLine cs line = .error ⟨line, .malformed rest stop⟩ := by
  cases hread : fields cs with
  | error e => exact ⟨e.1, e.2, by rw [parseLine, hread]⟩
  | ok fs =>
    obtain ⟨ws, hne, htokens, _⟩ := fields_eq_ok_iff.1 hread
    rw [hcs] at htokens
    exact absurd (List.map_eq_nil_iff.1 htokens.symm) hne

theorem parseLine_unfit {names : List (List Char)}
    (hfields : List.Forall₂ IsField (tokens cs) names) (hunfit : Unfit names) :
    ∃ fault, parseLine cs line = .error ⟨line, fault⟩ ∧ fault.Fits names := by
  rcases eq_or_ne names [] with rfl | hne
  · obtain ⟨rest, stop, hmalformed⟩ :=
      exists_malformed (List.forall₂_nil_right_iff.1 hfields) line
    exact ⟨_, hmalformed, rfl⟩
  obtain ⟨ws, htokens, rfl⟩ := exists_written_of_isField hfields
  have hread : fields cs = .ok (ws.map WrittenField.field) :=
    fields_eq_ok_iff.2 ⟨ws, fun hnil => hne (by rw [hnil]; rfl), htokens, rfl⟩
  have hnames : (ws.map WrittenField.field).map (·.name) = ws.map (·.name) := by
    rw [List.map_map]
    rfl
  cases hrecord : ofFields (ws.map WrittenField.field) line with
  | error fault =>
    exact ⟨fault, parseLine_eq_error hread hrecord, hnames ▸ fits_of_ofFields hrecord⟩
  | ok r =>
    obtain ⟨v, hperm, _⟩ := ofFields_eq_ok_iff.1 hrecord
    have hkeys := hperm.map (·.name)
    rw [hnames, List.map_map] at hkeys
    exact absurd hunfit (not_unfit_of_perm hkeys)

/-- A line is read as a record exactly when its tokens between blanks and tabs are the four fields
in some order, each with a numeral that is read as a whole. The record is the same in every order
and for every spelling of the numbers. Fields with other keys, or not each key once, are refused
with a fault that fits them. -/
theorem line_grammar :
    (∀ cs line r, parseLine cs line = .ok r ↔
      ∃ bytes seed count hash : List Char, ∃ b s c h : UInt64,
        Number.Numeral bytes b ∧ Number.Numeral seed s ∧ Number.Numeral count c ∧
        Number.Numeral hash h ∧
        (tokens cs).Perm ["bytes=".toList ++ bytes, "seed=".toList ++ seed,
          "count=".toList ++ count, "hash=".toList ++ hash] ∧
        r = ⟨b.toNat, s, c.toNat, h, line⟩) ∧
    (∀ cs ds line r, Respelled (tokens cs) (tokens ds) → parseLine cs line = .ok r →
      parseLine ds line = .ok r) ∧
    ∀ cs line names, List.Forall₂ IsField (tokens cs) names →
      (∃ name ∈ names, name ∉ keyNames) ∨ ¬ names.Nodup ∨ (∃ name ∈ keyNames, name ∉ names) →
      ∃ fault, parseLine cs line = .error ⟨line, fault⟩ ∧ fault.Fits names := by
  refine ⟨fun cs line r => ?_, fun cs ds line r => parseLine_respelled,
    fun cs line names => parseLine_unfit⟩
  rw [parseLine_eq_ok_iff_tokens]
  constructor
  · rintro ⟨numeral, v, hnumeral, hperm, rfl⟩
    exact ⟨_, _, _, _, _, _, _, _, hnumeral .bytes, hnumeral .seed, hnumeral .count, hnumeral .hash,
      hperm, rfl⟩
  · rintro ⟨bytes, seed, count, hash, b, s, c, h, hb, hs, hc, hh, hperm, rfl⟩
    refine ⟨Key.select bytes seed count hash, Key.select b s c h, ?_, hperm, rfl⟩
    intro key
    cases key <;> assumption

theorem line_grammar_reordered :
    Respelled (tokens "bytes=64 seed=7 count=3 hash=16".toList)
        (tokens "\thash=0x1_0 count=03  seed=0X7 bytes=64 ".toList) ∧
      parseLine "\thash=0x1_0 count=03  seed=0X7 bytes=64 ".toList 4 = .ok ⟨64, 7, 3, 16, 4⟩ ∧
      ∃ fault, parseLine "bytes=64 bytes=8 seed=1".toList 1 = .error ⟨1, fault⟩ ∧
        fault.Fits ["bytes".toList, "bytes".toList, "seed".toList] := by
  have hnumeral (cs : List Char) (v : UInt64) (h : Number.literal cs = .ok (v, [])) :
      Number.Numeral cs v := Number.literal_eq_ok_nil_iff.1 h
  have hletters (name : List Char) (h : name.all isLetter = true) : ∀ c ∈ name, isLetter c :=
    List.all_eq_true.1 h
  obtain ⟨_, hrespelled, hunfit⟩ := line_grammar
  have hsame : Respelled (tokens "bytes=64 seed=7 count=3 hash=16".toList)
      (tokens "\thash=0x1_0 count=03  seed=0X7 bytes=64 ".toList) := by
    refine ⟨["hash=16".toList, "count=3".toList, "seed=7".toList, "bytes=64".toList], by decide, ?_⟩
    refine .cons ?_ (.cons ?_ (.cons ?_ (.cons ?_ .nil)))
    · exact ⟨"hash".toList, _, _, 16, hletters _ (by decide), rfl, rfl, hnumeral _ _ rfl,
        hnumeral _ _ rfl⟩
    · exact ⟨"count".toList, _, _, 3, hletters _ (by decide), rfl, rfl, hnumeral _ _ rfl,
        hnumeral _ _ rfl⟩
    · exact ⟨"seed".toList, _, _, 7, hletters _ (by decide), rfl, rfl, hnumeral _ _ rfl,
        hnumeral _ _ rfl⟩
    · exact ⟨"bytes".toList, _, _, 64, hletters _ (by decide), rfl, rfl, hnumeral _ _ rfl,
        hnumeral _ _ rfl⟩
  refine ⟨hsame, hrespelled _ _ 4 _ hsame rfl, hunfit _ 1 _ ?_ ?_⟩
  · refine .cons ?_ (.cons ?_ (.cons ?_ .nil))
    · exact ⟨_, 64, by decide, hletters _ (by decide), rfl, hnumeral _ _ rfl⟩
    · exact ⟨_, 8, by decide, hletters _ (by decide), rfl, hnumeral _ _ rfl⟩
    · exact ⟨_, 1, by decide, hletters _ (by decide), rfl, hnumeral _ _ rfl⟩
  · exact .inr (.inl (by decide))

end AfuBench.Golden
