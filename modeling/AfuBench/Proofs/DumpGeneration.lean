import AfuBench.Proofs.DumpCheck
import AfuBench.Proofs.StoreWrites

namespace AfuBench

namespace Dump

theorem length_encode {words : Nat} {vs : List (List UInt64)} (hlen : ∀ v ∈ vs, v.length = words) :
    (encode vs).length = 8 * words * vs.length := by
  rw [encode, length_encodeWords, length_flatten_of_forall hlen, Nat.mul_assoc]

theorem decode_encode {words : Nat} (hwords : 0 < words) {vs : List (List UInt64)}
    (hlen : ∀ v ∈ vs, v.length = words) : decode words (encode vs) = vs := by
  rw [decode_encode_eq_whole, Blocks.whole_flatten hwords hlen]

end Dump

structure FileStore.SameBut (path : String) (s t : FileStore) : Prop where
  directories : t.directories = s.directories
  read_iff : ∀ other, location other ≠ location path →
    ∀ held, t.read other = .ok held ↔ s.read other = .ok held

namespace Tool

variable {path : String} {bytes words : Nat} {w : Workspace}

theorem run_writeDump (hpath : w.files.Writable path) (vs : List (List UInt64)) :
    (writeDump path vs).run.run w =
      (.ok (), { w with files := w.files.put (FileStore.location path) (Dump.encode vs) }) := by
  rw [writeDump, run_bind, run_get]
  simp only [hpath.write, run_bind, run_orFail_ok]
  rfl

theorem run_generate_invalid {e : DataError} (hbytes : wordCount bytes = .error e) (seed : UInt64)
    (count : Nat) (dump : Option String) (w : Workspace) :
    (generate bytes seed count dump).run.run w = (.error (.data e), w) := by
  rw [generate, run_bind, run_orFail, hbytes]
  rfl

theorem run_generate {hash : UInt64} {seed : UInt64} {count : Nat}
    (hbytes : wordCount bytes = .ok words) (hhash : expectedHash bytes seed count = .ok hash)
    (hpath : w.files.Writable path) :
    (generate bytes seed count (some path)).run.run w =
      (.ok hash,
        { files := w.files.put (FileStore.location path) (Dump.encode (vectors seed words count))
          console := [goldenLine bytes seed count hash,
            "Wrote " ++ decimal count ++ " vectors to " ++ path].foldl Console.printLine w.console }) := by
  rw [generate, run_bind, hbytes]
  simp only [run_bind, hhash, run_orFail_ok, run_printLine]
  rw [run_writeDump (w := ⟨w.files, w.console.printLine (goldenLine bytes seed count hash)⟩) hpath]
  rfl

theorem loaded_of_generated {files : FileStore} {seed : UInt64} {count : Nat} (hwords : 0 < words)
    (hread : files.read path = .ok (Dump.encode (vectors seed words count))) :
    loaded files path (8 * words) = .ok (vectors seed words count) := by
  have hlen : ∀ v ∈ vectors seed words count, v.length = words := fun v => length_of_mem_vectors
  refine loaded_eq_ok_iff.2 ⟨words, _, wordCount_eight_mul hwords, hread, ?_, ?_⟩
  · rw [Dump.length_encode hlen]
    exact Nat.mul_mod_right _ _
  · exact (Dump.decode_encode hwords hlen).symm

/-- A generated dump replaces what stood at its path by the generated vectors and nothing else, and
the check of it succeeds with the hash and the count that were printed. Of an invalid length nothing
is printed or written. -/
theorem checkDump_generate (w : Workspace) (path : String) (bytes : Nat) (seed : UInt64)
    (count : Nat) :
    (∀ words, 0 < words → bytes = 8 * words → w.files.Writable path →
      ∃ hash v, expectedHash bytes seed count = .ok hash ∧
        (generate bytes seed count (some path)).run.run w = (.ok hash, v) ∧
        v.files.read path = .ok (Dump.encode (vectors seed words count)) ∧
        (Dump.encode (vectors seed words count)).length = bytes * count ∧
        FileStore.SameBut path w.files v.files ∧
        v.console = [goldenLine bytes seed count hash,
          "Wrote " ++ decimal count ++ " vectors to " ++ path].foldl Console.printLine w.console ∧
        (checkDump path bytes seed).run.run v =
          (.ok true,
            { v with
              console := ["Vectors:  " ++ decimal count, "Hash:     0x" ++ hexWordFull hash,
                "Expected: 0x" ++ hexWordFull hash].foldl Console.printLine v.console })) ∧
    (bytes = 0 ∨ bytes % 8 ≠ 0 → ∀ dump,
      (generate bytes seed count dump).run.run w = (.error (.data (.invalidLength bytes)), w)) := by
  refine ⟨?_, ?_⟩
  · rintro words hwords rfl hpath
    have hbytes := wordCount_eight_mul hwords
    have hlen : ∀ v ∈ vectors seed words count, v.length = words := fun v => length_of_mem_vectors
    have hhash := expectedHash_of_wordCount hbytes seed count
    have hread := hpath.read_put (Dump.encode (vectors seed words count))
    refine ⟨_, _, hhash, run_generate hbytes hhash hpath, hread, ?_, ⟨rfl, ?_⟩, rfl, ?_⟩
    · rw [Dump.length_encode hlen, length_vectors]
    · exact fun other hother held => FileStore.read_put_of_ne hother _ held
    · have hcheck (console : Console) := run_checkDump seed
        ⟨w.files.put (FileStore.location path) (Dump.encode (vectors seed words count)), console⟩
        hbytes (loaded_of_generated hwords hread)
      simp only [checkLines, length_vectors, decide_true, if_true, List.append_nil] at hcheck
      exact hcheck _
  · intro hinvalid dump
    refine run_generate_invalid ?_ seed count dump w
    rw [wordCount, if_pos (by omega)]

def usedWorkspace : Workspace :=
  ⟨⟨[], [([['d']], [1, 2, 3]), ([['e']], [7])]⟩, .empty⟩

theorem checkDump_generate_overwrite :
    usedWorkspace.files.Writable "d" ∧
      (∃ hash v, expectedHash 16 5 3 = .ok hash ∧
        (generate 16 5 3 (some "d")).run.run usedWorkspace = (.ok hash, v) ∧
        v.files.read "d" = .ok (Dump.encode (vectors 5 2 3)) ∧
        v.files.read "e" = .ok [7] ∧
        ((checkDump "d" 16 5).run.run v).1 = .ok true) ∧
      (generate 12 5 3 (some "d")).run.run usedWorkspace =
        (.error (.data (.invalidLength 12)), usedWorkspace) := by
  have hpath : usedWorkspace.files.Writable "d" := ⟨_, rfl⟩
  have hother : FileStore.location "e" ≠ FileStore.location "d" := by decide
  obtain ⟨hvalid, _⟩ := checkDump_generate usedWorkspace "d" 16 5 3
  obtain ⟨_, hinvalid⟩ := checkDump_generate usedWorkspace "d" 12 5 3
  obtain ⟨hash, v, hhash, hrun, hread, _, hsame, _, hcheck⟩ := hvalid 2 (by decide) rfl hpath
  refine ⟨hpath, ⟨hash, v, hhash, hrun, hread, ?_, ?_⟩, hinvalid (.inr (by decide)) _⟩
  · exact (hsame.read_iff "e" hother [7]).2 rfl
  · rw [hcheck]

end Tool

end AfuBench
