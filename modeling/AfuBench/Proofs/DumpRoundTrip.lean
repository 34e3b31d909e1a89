import AfuBench.Proofs.DumpGeneration

namespace AfuBench

namespace Dump

variable {words : Nat} {bs : List UInt8}

theorem wordBytes_bytesWord (hlen : bs.length = 8) : wordBytes (bytesWord bs) = bs := by
  have hlen' := (length_wordBytes (bytesWord bs)).trans hlen.symm
  apply List.ext_getElem hlen'
  intro k hk hk'
  apply UInt8.toBitVec_inj.1
  apply BitVec.eq_of_getLsbD_eq
  intro i hi
  have hbit := getLsbD_wordBytes (bytesWord bs) (show k < 8 by omega) hi
  rw [getLsbD_bytesWord bs (by omega), show (8 * k + i) / 8 = k by omega,
    show (8 * k + i) % 8 = i by omega, List.getD_eq_getElem _ _ hk,
    List.getD_eq_getElem _ _ hk'] at hbit
  exact hbit

theorem encodeWords_decodeWords (hlen : 8 ∣ bs.length) : encodeWords (decodeWords bs) = bs := by
  have hsame : ∀ block ∈ Blocks.whole 8 bs, (wordBytes ∘ bytesWord) block = id block := by
    intro block hblock
    exact wordBytes_bytesWord (Blocks.length_of_mem_whole hblock)
  rw [encodeWords, decodeWords, List.flatMap_def, List.map_map, List.map_congr_left hsame,
    List.map_id, Blocks.flatten_whole hlen]

theorem encode_decode (hlen : 8 * words ∣ bs.length) : encode (decode words bs) = bs := by
  obtain ⟨count, hcount⟩ := hlen
  have hwhole : 8 ∣ bs.length := ⟨words * count, by rw [hcount, Nat.mul_assoc]⟩
  rw [encode, flatten_decode hcount, encodeWords_decodeWords hwhole]

theorem dvd_length_encode_iff {vs : List (List UInt64)} :
    8 * words ∣ (encode vs).length ↔ words ∣ vs.flatten.length := by
  rw [encode, length_encodeWords]
  exact Nat.mul_dvd_mul_iff_left (by decide)

end Dump

namespace Tool

variable {files : FileStore} {path : String} {bytes words : Nat} {w v : Workspace} {e : ToolError}
  {us vs : List (List UInt64)}

theorem run_writeDump_eq_ok_iff :
    (writeDump path vs).run.run w = (.ok (), v) ↔
      w.files.Writable path ∧
        v = { w with files := w.files.put (FileStore.location path) (Dump.encode vs) } := by
  constructor
  · intro h
    have hpath : w.files.Writable path := by
      cases hwrite : w.files.write path (Dump.encode vs) with
      | error e =>
        rw [writeDump, run_bind, run_get] at h
        simp only [run_bind, hwrite, run_orFail_error] at h
        exact absurd (congrArg Prod.fst h) (by simp)
      | ok t =>
        obtain ⟨hleads, hdir, hopen, hshort, _⟩ := FileStore.write_eq_ok_iff.1 hwrite
        exact ⟨_, FileStore.write_eq_ok_iff.2 ⟨hleads, hdir, hopen, hshort, rfl⟩⟩
    rw [run_writeDump hpath] at h
    exact ⟨hpath, (congrArg Prod.snd h).symm⟩
  · rintro ⟨hpath, rfl⟩
    exact run_writeDump hpath vs

theorem run_loadDump_eq_ok_iff :
    (loadDump path bytes).run.run w = (.ok us, w) ↔ loaded w.files path bytes = .ok us := by
  rw [run_loadDump, Prod.mk.injEq]
  exact and_iff_left rfl

/-- Why a dump is not loaded. The length is looked at before the file. -/
inductive LoadFault (files : FileStore) (path : String) (bytes : Nat) : ToolError → Prop
  | length (h : bytes = 0 ∨ ¬ 8 ∣ bytes) :
    LoadFault files path bytes (.data (.invalidLength bytes))
  | unreadable {reason : FileError} (hpos : 0 < bytes) (h8 : 8 ∣ bytes)
    (hread : files.read path = .error reason) : LoadFault files path bytes (dumpError path reason)
  | ragged {content : List UInt8} (hpos : 0 < bytes) (h8 : 8 ∣ bytes)
    (hread : files.read path = .ok content) (h : ¬ bytes ∣ content.length) :
    LoadFault files path bytes (.ragged content.length bytes)

theorem wordCount_eq_error (h : bytes = 0 ∨ ¬ 8 ∣ bytes) :
    wordCount bytes = .error (.invalidLength bytes) := by
  rw [wordCount, if_pos (by omega)]

theorem loaded_eq_error_iff :
    loaded files path bytes = .error e ↔ LoadFault files path bytes e := by
  constructor
  · intro h
    by_cases hbytes : bytes = 0 ∨ ¬ 8 ∣ bytes
    · rw [loaded, wordCount_eq_error hbytes, Except.error.injEq] at h
      exact h ▸ .length hbytes
    · obtain ⟨hpos, h8⟩ : 0 < bytes ∧ 8 ∣ bytes := by omega
      obtain ⟨words, rfl⟩ := h8
      rw [loaded, wordCount_eight_mul (Nat.pos_of_mul_pos_left hpos)] at h
      cases hread : files.read path with
      | error reason =>
        rw [hread] at h
        exact Except.error.inj h ▸ .unreadable hpos (Nat.dvd_mul_right 8 words) hread
      | ok content =>
        simp only [hread] at h
        split at h
        · exact absurd h (by simp)
        · rename_i hragged
          rw [← Nat.dvd_iff_mod_eq_zero] at hragged
          exact Except.error.inj h ▸ .ragged hpos (Nat.dvd_mul_right 8 words) hread hragged
  · intro h
    cases h with
    | length hbytes => rw [loaded, wordCount_eq_error hbytes]
    | unreadable hpos h8 hread =>
      obtain ⟨words, rfl⟩ := h8
      rw [loaded, wordCount_eight_mul (Nat.pos_of_mul_pos_left hpos), hread]
    | ragged hpos h8 hread hragged =>
      obtain ⟨words, rfl⟩ := h8
      rw [Nat.dvd_iff_mod_eq_zero] at hragged
      rw [loaded, wordCount_eight_mul (Nat.pos_of_mul_pos_left hpos), hread]
      exact if_neg hragged

theorem loaded_eight_mul_iff (hwords : 0 < words) :
    loaded files path (8 * words) = .ok us ↔
      ∃ content, files.read path = .ok content ∧ 8 * words ∣ content.length ∧
        us = Dump.decode words content := by
  rw [loaded_eq_ok_iff]
  constructor
  · rintro ⟨words', content, hcount, hread, hlen, rfl⟩
    rw [wordCount_eight_mul hwords, Except.ok.injEq] at hcount
    exact ⟨content, hread, Nat.dvd_of_mod_eq_zero hlen, by rw [hcount]⟩
  · rintro ⟨content, hread, hlen, rfl⟩
    exact ⟨words, content, wordCount_eight_mul hwords, hread, Nat.mod_eq_zero_of_dvd hlen, rfl⟩

theorem loaded_put_iff (hwords : 0 < words) (hpath : files.Writable path) :
    loaded (files.put (FileStore.location path) (Dump.encode vs)) path (8 * words) = .ok us ↔
      words ∣ vs.flatten.length ∧ us = Blocks.whole words vs.flatten := by
  rw [loaded_eight_mul_iff hwords, hpath.read_put, ← Dump.dvd_length_encode_iff,
    ← Dump.decode_encode_eq_whole]
  constructor
  · rintro ⟨content, hcontent, hlen, hus⟩
    rw [Except.ok.injEq] at hcontent
    subst hcontent
    exact ⟨hlen, hus⟩
  · rintro ⟨hlen, hus⟩
    exact ⟨_, rfl, hlen, hus⟩

theorem loadDump_writeDump (w : Workspace) (path : String) :
    (∀ vs, (∃ v, (writeDump path vs).run.run w = (.ok (), v)) ↔ w.files.Writable path) ∧
    (∀ vs v words, (writeDump path vs).run.run w = (.ok (), v) → 0 < words →
      ((∃ us, (loadDump path (8 * words)).run.run v = (.ok us, v)) ↔ words ∣ vs.flatten.length) ∧
      (∀ us, (loadDump path (8 * words)).run.run v = (.ok us, v) →
        us.flatten = vs.flatten ∧ ∀ u ∈ us, u.length = words) ∧
      ((∀ u ∈ vs, u.length = words) → (loadDump path (8 * words)).run.run v = (.ok vs, v))) ∧
    (∀ content words, w.files.read path = .ok content → 0 < words → 8 * words ∣ content.length →
      ∃ us, (loadDump path (8 * words)).run.run w = (.ok us, w) ∧
        ∀ target, w.files.Writable target →
          ∃ v, (writeDump target us).run.run w = (.ok (), v) ∧
            v.files.read target = .ok content) ∧
    (∀ bytes e v, (loadDump path bytes).run.run w = (.error e, v) ↔
      LoadFault w.files path bytes e ∧ v = w) := by
  refine ⟨?_, ?_, ?_, ?_⟩
  · intro vs
    simp only [run_writeDump_eq_ok_iff, exists_and_left, exists_eq, and_true]
  · intro vs v words hwrite hwords
    obtain ⟨hpath, rfl⟩ := run_writeDump_eq_ok_iff.1 hwrite
    simp only [run_loadDump_eq_ok_iff, loaded_put_iff hwords hpath]
    refine ⟨?_, ?_, ?_⟩
    · exact ⟨fun ⟨_, hdvd, _⟩ => hdvd, fun hdvd => ⟨_, hdvd, rfl⟩⟩
    · rintro us ⟨hdvd, rfl⟩
      exact ⟨Blocks.flatten_whole hdvd, fun u => Blocks.length_of_mem_whole⟩
    · intro hlen
      refine ⟨?_, (Blocks.whole_flatten hwords hlen).symm⟩
      rw [length_flatten_of_forall hlen]
      exact Nat.dvd_mul_right words vs.length
  · intro content words hread hwords hdvd
    refine ⟨Dump.decode words content, ?_, ?_⟩
    · exact run_loadDump_eq_ok_iff.2 ((loaded_eight_mul_iff hwords).2 ⟨content, hread, hdvd, rfl⟩)
    · intro target htarget
      refine ⟨_, run_writeDump htarget _, ?_⟩
      rw [Dump.encode_decode hdvd]
      exact htarget.read_put content
  · intro bytes e v
    rw [run_loadDump, Prod.mk.injEq, loaded_eq_error_iff, @eq_comm _ w v]

def unevenVectors : List (List UInt64) := [[1], [2, 3, 4]]

def shortDump : Workspace := ⟨⟨[], [([['d']], flippedBit)]⟩, .empty⟩

theorem loadDump_writeDump_uneven :
    (∃ v, (writeDump "d" unevenVectors).run.run usedWorkspace = (.ok (), v) ∧
      (∃ us, (loadDump "d" 16).run.run v = (.ok us, v) ∧ us.flatten = [1, 2, 3, 4] ∧
        ∀ u ∈ us, u.length = 2) ∧
      ¬ ∃ us, (loadDump "d" 24).run.run v = (.ok us, v)) ∧
    (∃ v, (writeDump "d" [[1, 2], [3, 4]]).run.run usedWorkspace = (.ok (), v) ∧
      (loadDump "d" 16).run.run v = (.ok [[1, 2], [3, 4]], v)) ∧
    (∃ us v, (loadDump "d" 8).run.run shortDump = (.ok us, shortDump) ∧
      (writeDump "f" us).run.run shortDump = (.ok (), v) ∧
      v.files.read "f" = .ok flippedBit) ∧
    (loadDump "f" 12).run.run usedWorkspace = (.error (.data (.invalidLength 12)), usedWorkspace) ∧
    (loadDump "f" 16).run.run usedWorkspace = (.error (.openDump "f" .notFound), usedWorkspace) ∧
    (loadDump "d" 16).run.run usedWorkspace = (.error (.ragged 3 16), usedWorkspace) := by
  obtain ⟨hwrites, hload, _, hfault⟩ := loadDump_writeDump usedWorkspace "d"
  obtain ⟨_, _, _, hmissing⟩ := loadDump_writeDump usedWorkspace "f"
  obtain ⟨_, _, hback, _⟩ := loadDump_writeDump shortDump "d"
  refine ⟨?_, ?_, ?_, ?_, ?_, ?_⟩
  · obtain ⟨v, hv⟩ := (hwrites unevenVectors).2 ⟨_, rfl⟩
    obtain ⟨htwo, hcut, _⟩ := hload _ v 2 hv (by decide)
    obtain ⟨hthree, _, _⟩ := hload _ v 3 hv (by decide)
    obtain ⟨us, hus⟩ := htwo.2 (by decide)
    exact ⟨v, hv, ⟨us, hus, hcut us hus⟩, fun h => absurd (hthree.1 h) (by decide)⟩
  · obtain ⟨v, hv⟩ := (hwrites [[1, 2], [3, 4]]).2 ⟨_, rfl⟩
    obtain ⟨_, _, hsame⟩ := hload _ v 2 hv (by decide)
    refine ⟨v, hv, hsame ?_⟩
    simp
  · obtain ⟨us, hus, hwritten⟩ := hback flippedBit 1 rfl (by decide) (by decide)
    obtain ⟨v, hv, hread⟩ := hwritten "f" ⟨_, rfl⟩
    exact ⟨us, v, hus, hv, hread⟩
  · exact (hmissing 12 _ _).2 ⟨.length (.inr (by decide)), rfl⟩
  · have hread : usedWorkspace.files.read "f" = .error .notFound := rfl
    have hunreadable : LoadFault usedWorkspace.files "f" 16 (.openDump "f" .notFound) :=
      .unreadable (by decide) (by decide) hread
    exact (hmissing 16 _ _).2 ⟨hunreadable, rfl⟩
  · have hread : usedWorkspace.files.read "d" = .ok [1, 2, 3] := rfl
    have hragged : LoadFault usedWorkspace.files "d" 16 (.ragged 3 16) :=
      .ragged (by decide) (by decide) hread (by decide)
    exact (hfault 16 _ _).2 ⟨hragged, rfl⟩

end Tool

end AfuBench
