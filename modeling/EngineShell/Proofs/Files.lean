import EngineShell.Storage.Entries
import EngineShell.Storage.Record
import Mathlib.Tactic

/-!
# Files read as they were written

Writing a file changes no directory, so every path that led somewhere still leads there
(`locate_write`), and the file reads as it was written (`read_write`). A file that can be read can
be written (`exists_write`).
-/

namespace EngineShell

namespace Disk

variable {d d' : Disk} {l : Location} {p : Path} {text : String}

theorem lookup_erase (es : List (Location × DiskEntry)) (k : Location) :
    (es.filter fun q => q.1 != l).lookup k = if k = l then none else es.lookup k := by
  induction es with
  | nil => simp
  | cons q es ih =>
    by_cases hq : q.1 = l
    · rw [List.filter_cons_of_neg (by simp [hq]), ih, lookup_cons_eq_ite, hq]
      split_ifs <;> rfl
    · rw [List.filter_cons_of_pos (by simp [hq]), lookup_cons_eq_ite, lookup_cons_eq_ite, ih]
      by_cases hk : k = l
      · rw [if_neg fun h => hq (h.symm.trans hk), if_pos hk, if_pos hk]
      · rw [if_neg hk, if_neg hk]

theorem entryAt_put (d : Disk) (hl : l.names ≠ []) (e : DiskEntry) (k : Location) :
    (d.put l e).entryAt? k = if k = l then some e else d.entryAt? k := by
  unfold entryAt?
  rw [put, List.lookup_append, lookup_erase, lookup_cons_eq_ite]
  by_cases hk : k = l
  · subst hk
    simp [hl]
  · simp [hk]

/-- A piece leads where it led if every directory is still one. -/
theorem follow_mono (h : ∀ k, d.entryAt? k = some .directory → d'.entryAt? k = some .directory)
    {k k' : Location} {piece : String} (hk : d.follow? k piece = some k') :
    d'.follow? k piece = some k' := by
  unfold follow? at hk ⊢
  by_cases hd : d.entryAt? k = some .directory
  · rw [if_neg (by simp [hd])] at hk
    rwa [if_neg (by simp [h k hd])]
  · simp [hd] at hk

theorem locate_mono (h : ∀ k, d.entryAt? k = some .directory → d'.entryAt? k = some .directory)
    (hl : d.locate? p = some l) : d'.locate? p = some l := by
  unfold locate? at hl ⊢
  split_ifs at hl ⊢ with hp
  generalize p.start = k at hl ⊢
  generalize p.pieces = pieces at hl ⊢
  induction pieces generalizing k with
  | nil => exact hl
  | cons piece pieces ih =>
    rw [List.foldlM_cons] at hl ⊢
    obtain ⟨k', hk, hl⟩ := Option.bind_eq_some_iff.1 hl
    exact Option.bind_eq_some_iff.2 ⟨k', follow_mono h hk, ih k' hl⟩

theorem write_eq_some (h : d.write? p text = some d') :
    ∃ l, d.locate? p = some l ∧ d.entryAt? l ≠ some .directory ∧ d' = d.put l (.file text) := by
  unfold write? at h
  rw [Option.bind_eq_some_iff] at h
  obtain ⟨l, hl, h⟩ := h
  split_ifs at h with hd
  exact ⟨l, hl, hd, (Option.some_inj.1 h).symm⟩

theorem names_ne_nil (h : d.entryAt? l ≠ some .directory) : l.names ≠ [] := by
  intro hl
  simp [entryAt?, hl] at h

theorem locate_write (h : d.write? p text = some d') {q : Path} (hl : d.locate? q = some l) :
    d'.locate? q = some l := by
  obtain ⟨k, -, hd, rfl⟩ := write_eq_some h
  refine locate_mono (fun j hj => ?_) hl
  rw [entryAt_put d (names_ne_nil hd), if_neg]
  · exact hj
  · rintro rfl
    exact hd hj

theorem get_write (h : d.write? p text = some d') : d'.get? p = some (.file text) := by
  obtain ⟨l, hl, hd, hd'⟩ := write_eq_some h
  rw [get?, locate_write h hl, hd', Option.bind_some, entryAt_put d (names_ne_nil hd), if_pos rfl]

theorem exists_write (h : d.read? p = some text) (text' : String) :
    ∃ d', d.write? p text' = some d' := by
  unfold read? get? at h
  rcases hl : d.locate? p with _ | l
  · simp [hl] at h
  · rw [hl, Option.bind_some] at h
    have hd : d.entryAt? l ≠ some .directory := by
      intro hd
      simp [hd] at h
    exact ⟨d.put l (.file text'), by rw [write?, hl, Option.bind_some, if_neg hd]⟩

end Disk

namespace DataDir

variable {dir : DataDir} {d d' : Disk} {r : SavedRecord}

/-- The record in a data directory. What cannot be loaded counts as missing. -/
def record? (dir : DataDir) (d : Disk) : Option SavedRecord :=
  (dir.loadRecord d).toOption.join

theorem record_of_read {text : String} (h : d.read? dir.recordPath = some text) :
    dir.record? d = SavedRecord.ofText? text := by
  have he : d.exists? dir.recordPath = true := by
    unfold Disk.read? at h
    unfold Disk.exists?
    rcases hg : d.get? dir.recordPath with _ | e
    · simp [hg] at h
    · rfl
  rw [record?, loadRecord, if_pos he, h]
  dsimp only
  cases SavedRecord.ofText? text <;> rfl

theorem read_of_record (h : dir.record? d = some r) :
    ∃ text, d.read? dir.recordPath = some text := by
  unfold record? loadRecord at h
  split_ifs at h
  · rcases hr : d.read? dir.recordPath with _ | text
    · simp [hr, Except.toOption] at h
    · exact ⟨text, rfl⟩
  · simp [Except.toOption] at h

/-- A record that is saved is there, as it reads. -/
theorem record_saveRecord (h : dir.saveRecord d r = .ok d') :
    dir.record? d' = SavedRecord.ofText? r.toText := by
  refine record_of_read (d := d') ?_
  unfold saveRecord at h
  split at h
  · rename_i hw
    cases h
    rw [Disk.read?, Disk.get_write hw]
  · cases h

/-- Where a record can be loaded another one can be saved. -/
theorem exists_saveRecord (h : dir.record? d = some r) (r' : SavedRecord) :
    ∃ d', dir.saveRecord d r' = .ok d' := by
  obtain ⟨text, ht⟩ := read_of_record h
  obtain ⟨d', hd⟩ := Disk.exists_write ht r'.toText
  exact ⟨d', by rw [saveRecord, hd]⟩

end DataDir

end EngineShell
