import AfuBench.Files.Store
import AfuBench.Proofs.Outcomes

namespace AfuBench

theorem lookup_filter_ne {κ β : Type} [DecidableEq κ] [BEq κ] [LawfulBEq κ] {k other : κ}
    (h : other ≠ k) (entries : List (κ × β)) :
    (entries.filter (·.1 ≠ k)).lookup other = entries.lookup other := by
  induction entries with
  | nil => rfl
  | cons entry entries ih =>
    obtain ⟨key, value⟩ := entry
    by_cases hkey : key = k
    · have hskip : (other == key) = false := by simpa [hkey] using h
      rw [List.filter_cons_of_neg (by simpa using hkey), ih, List.lookup_cons, hskip]
    · rw [List.filter_cons_of_pos (by simpa using hkey), List.lookup_cons, List.lookup_cons, ih]

namespace FileStore

variable {s t : FileStore} {path other : String} {content : List UInt8} {place : Place}

structure Leads (s : FileStore) (path : String) : Prop where
  noNull : '\x00' ∉ path.toList
  nonempty : path ≠ ""
  short : path.utf8ByteSize ≤ 4095
  passable : s.enter [] (passage path) = .ok ()

def standing (s : FileStore) (path : String) : Place :=
  if s.isDirectory (location path) then .directory
  else match s.files.lookup (location path) with
    | some content => .file (location path) content
    | none => .vacant (location path)

theorem resolve_eq_ok_iff : s.resolve path = .ok place ↔ s.Leads path ∧ place = s.standing path := by
  have hgoal : s.resolve path = (if '\x00' ∈ path.toList then .error .nullInName
      else if path = "" then .error .notFound
      else if 4095 < path.utf8ByteSize then .error .nameTooLong
      else (s.enter [] (passage path)).map fun _ => s.standing path) := by
    rw [resolve, standing]
    cases s.enter [] (passage path) with
    | error e => rfl
    | ok u =>
      by_cases hdir : s.isDirectory (location path) = true
      · simp only [hdir, if_true]
        rfl
      · simp only [hdir]
        cases s.files.lookup (location path) <;> rfl
  rw [hgoal]
  constructor
  · intro h
    split at h
    · exact absurd h (by simp)
    split at h
    · exact absurd h (by simp)
    split at h
    · exact absurd h (by simp)
    rename_i hnull hempty hlong
    cases hpass : s.enter [] (passage path) with
    | error e =>
      rw [hpass] at h
      exact absurd h (by simp [Except.map])
    | ok u =>
      rw [hpass] at h
      exact ⟨⟨hnull, hempty, Nat.not_lt.1 hlong, hpass⟩, (Except.ok.inj h).symm⟩
  · rintro ⟨⟨hnull, hempty, hshort, hpass⟩, rfl⟩
    rw [if_neg hnull, if_neg hempty, if_neg (Nat.not_lt.2 hshort), hpass]
    rfl

theorem standing_eq_file_iff {l : Location} :
    s.standing path = .file l content ↔
      s.isDirectory (location path) = false ∧ s.files.lookup (location path) = some content ∧
        l = location path := by
  rw [standing]
  by_cases hdir : s.isDirectory (location path) = true
  · simp [hdir]
  · cases hlookup : s.files.lookup (location path) with
    | none => simp [hdir]
    | some held => simp [hdir, eq_comm, and_comm]

theorem read_eq_ok_iff :
    s.read path = .ok content ↔
      s.Leads path ∧ s.isDirectory (location path) = false ∧
        s.files.lookup (location path) = some content ∧ endsOpen path = false := by
  rw [read, bind_eq_ok_iff]
  simp only [resolve_eq_ok_iff]
  constructor
  · rintro ⟨place, ⟨hleads, hplace⟩, hread⟩
    cases place with
    | directory => exact absurd hread (by simp)
    | vacant l => exact absurd hread (by simp)
    | file l held =>
      obtain ⟨hdir, hlookup, rfl⟩ := standing_eq_file_iff.1 hplace.symm
      cases hopen : endsOpen path with
      | true => exact absurd hread (by simp [hopen])
      | false =>
        simp only [hopen, Bool.false_eq_true, if_false] at hread
        exact ⟨hleads, hdir, hlookup.trans (congrArg some (Except.ok.inj hread)), rfl⟩
  · rintro ⟨hleads, hdir, hlookup, hopen⟩
    refine ⟨_, ⟨hleads, (standing_eq_file_iff.2 ⟨hdir, hlookup, rfl⟩).symm⟩, ?_⟩
    simp only [hopen, Bool.false_eq_true, if_false]
    rfl

theorem write_of_standing (h : s.standing path ≠ .directory) (hleads : s.Leads path) :
    s.write path content =
      if endsOpen path then .error .isDirectory
      else if isTooLong ((location path).getLast?.getD []) then .error .nameTooLong
      else .ok (s.put (location path) content) := by
  rw [write, resolve_eq_ok_iff.2 ⟨hleads, rfl⟩]
  revert h
  rw [standing]
  split
  · exact fun h => absurd rfl h
  · intro _
    cases s.files.lookup (location path) <;> rfl

theorem write_eq_ok_iff :
    s.write path content = .ok t ↔
      s.Leads path ∧ s.isDirectory (location path) = false ∧ endsOpen path = false ∧
        isTooLong ((location path).getLast?.getD []) = false ∧
        t = s.put (location path) content := by
  constructor
  · intro h
    obtain ⟨place, hplace, hwrite⟩ := bind_eq_ok_iff.1 h
    obtain ⟨hleads, rfl⟩ := resolve_eq_ok_iff.1 hplace
    have hnot : s.standing path ≠ .directory := by
      intro hdir
      rw [hdir] at hwrite
      exact absurd hwrite (by simp)
    rw [write_of_standing hnot hleads] at h
    split at h
    · exact absurd h (by simp)
    split at h
    · exact absurd h (by simp)
    rename_i hopen hlong
    refine ⟨hleads, ?_, eq_false_of_ne_true hopen, eq_false_of_ne_true hlong, (Except.ok.inj h).symm⟩
    apply eq_false_of_ne_true
    intro hdir
    exact hnot (if_pos hdir)
  · rintro ⟨hleads, hdir, hopen, hshort, rfl⟩
    have hnot : s.standing path ≠ .directory := by
      rw [standing, hdir]
      cases s.files.lookup (location path) <;> simp
    rw [write_of_standing hnot hleads, hopen, hshort]
    rfl

def Writable (s : FileStore) (path : String) : Prop :=
  ∃ t, s.write path [] = .ok t

theorem Writable.write (h : s.Writable path) (content : List UInt8) :
    s.write path content = .ok (s.put (location path) content) := by
  obtain ⟨t, ht⟩ := h
  obtain ⟨hleads, hdir, hopen, hshort, _⟩ := write_eq_ok_iff.1 ht
  exact write_eq_ok_iff.2 ⟨hleads, hdir, hopen, hshort, rfl⟩

theorem enter_put (l : Location) (content : List UInt8) (above : Location)
    (rest : List (List Char)) :
    (s.put l content).enter above rest = .ok () ↔ s.enter above rest = .ok () := by
  induction rest generalizing above with
  | nil => rfl
  | cons name rest ih =>
    rw [enter, enter]
    by_cases hdir : s.isDirectory (above ++ [name]) = true
    · have hput : (s.put l content).isDirectory (above ++ [name]) = true := hdir
      rw [if_pos hdir, if_pos hput]
      exact ih _
    · have hput : ¬ (s.put l content).isDirectory (above ++ [name]) = true := hdir
      rw [if_neg hdir, if_neg hput]
      constructor
      · intro h
        split at h <;> exact absurd h (by simp)
      · intro h
        split at h <;> exact absurd h (by simp)

theorem leads_put (l : Location) (content : List UInt8) :
    (s.put l content).Leads path ↔ s.Leads path :=
  ⟨fun h => ⟨h.noNull, h.nonempty, h.short, (enter_put l content [] _).1 h.passable⟩,
    fun h => ⟨h.noNull, h.nonempty, h.short, (enter_put l content [] _).2 h.passable⟩⟩

theorem lookup_put (l : Location) (content : List UInt8) (k : Location) :
    (s.put l content).files.lookup k = if k = l then some content else s.files.lookup k := by
  rw [put, List.lookup_cons]
  by_cases hk : k = l
  · simp [hk]
  · have hskip : (k == l) = false := by simpa using hk
    rw [hskip, if_neg hk]
    exact lookup_filter_ne hk s.files

theorem Writable.read_put (h : s.Writable path) (content : List UInt8) :
    (s.put (location path) content).read path = .ok content := by
  obtain ⟨_, ht⟩ := h
  obtain ⟨hleads, hdir, hopen, _, _⟩ := write_eq_ok_iff.1 ht
  refine read_eq_ok_iff.2 ⟨(leads_put _ _).2 hleads, hdir, ?_, hopen⟩
  rw [lookup_put, if_pos rfl]

theorem read_put_of_ne (h : location other ≠ location path) (content held : List UInt8) :
    (s.put (location path) content).read other = .ok held ↔ s.read other = .ok held := by
  rw [read_eq_ok_iff, read_eq_ok_iff, leads_put, lookup_put, if_neg h]
  exact Iff.rfl

end FileStore

end AfuBench
