import EngineShell.Proofs.Files
import Mathlib.Data.List.TakeWhile

/-!
# Directories that are made

Making a directory makes those on the way to it too, and takes nothing away. Once that has
succeeded they are all there (`made_makeDirectories`), and as long as they are, making them again
changes nothing (`makeDirectories_of_made`) and the files of the directory lie side by side in one
place (`Made.folder`, `locate_child`).
-/

namespace EngineShell

namespace Path

/-- The pieces of a path that stay in front of a name that is joined to it. -/
def front (p : Path) : List String :=
  if p.pieces.getLast? = some "" then p.pieces.dropLast else p.pieces

theorem join_piece (p : Path) (piece : String) :
    p.join { pieces := [piece] } = { p with pieces := p.front ++ [piece] } := rfl

theorem pieces_eq (p : Path) : p.pieces = p.front ∨ p.pieces = p.front ++ [""] := by
  unfold front
  split_ifs with h
  · obtain ⟨pieces, heq⟩ := List.getLast?_eq_some_iff.1 h
    exact .inr (by rw [heq, List.dropLast_concat])
  · exact .inl rfl

/-- A path is not longer than that of a file in it. -/
theorem isUsable_of_child {p : Path} {name : String}
    (h : Path.isUsable { p with pieces := p.front ++ [name] } = true) :
    p = {} ∨ p.isUsable = true := by
  by_cases hp : p = {}
  · exact .inl hp
  refine .inr ?_
  simp only [isUsable, Bool.and_eq_true, decide_eq_true_eq] at h ⊢
  refine ⟨hp, le_trans ?_ h.2⟩
  simp only [text, String.utf8ByteSize_append]
  refine Nat.add_le_add_left ?_ _
  rcases hfront : p.front with _ | ⟨first, rest⟩
  · rcases p.pieces_eq with heq | heq <;> rw [heq, hfront]
    · exact Nat.zero_le _
    · exact Nat.zero_le _
  · rw [String.intercalate_append_of_ne_nil (by simp) (by simp), String.utf8ByteSize_append,
      String.utf8ByteSize_append]
    rcases p.pieces_eq with heq | heq <;> rw [heq, hfront]
    · omega
    · rw [String.intercalate_append_of_ne_nil (by simp) (by simp), String.utf8ByteSize_append,
        String.utf8ByteSize_append]
      have : ("/".intercalate [""]).utf8ByteSize = 0 := rfl
      omega

theorem withoutSlashes_of_mem_parents {p q : Path} (h : q ∈ p.parents) : q.withoutSlashes = q := by
  obtain ⟨n, -, rfl⟩ := List.mem_map.1 h
  have hne : ∀ piece ∈ (p.steps.take n).reverse, piece ≠ "" := by
    intro piece hmem
    have hstep := List.mem_of_mem_take (List.mem_reverse.1 hmem)
    have := (List.mem_filter.1 hstep).2
    simp only [Bool.and_eq_true, decide_eq_true_eq] at this
    exact this.1
  have hdrop : (p.steps.take n).reverse.dropWhile (· = "") = (p.steps.take n).reverse := by
    cases hrev : (p.steps.take n).reverse with
    | nil => rfl
    | cons piece rest =>
      rw [List.dropWhile_cons_of_neg]
      simpa using hne piece (hrev ▸ List.mem_cons_self)
  rw [withoutSlashes, hdrop, List.reverse_reverse]

end Path

namespace Disk

variable {d d' d'' : Disk} {l k : Location} {p : Path}

/-- Whatever is a directory stays one. -/
def KeepsDirectories (d d' : Disk) : Prop :=
  ∀ k, d.entryAt? k = some .directory → d'.entryAt? k = some .directory

theorem KeepsDirectories.refl (d : Disk) : d.KeepsDirectories d :=
  fun _ h => h

theorem KeepsDirectories.trans (h : d.KeepsDirectories d') (h' : d'.KeepsDirectories d'') :
    d.KeepsDirectories d'' :=
  fun k hk => h' k (h k hk)

theorem KeepsDirectories.get (h : d.KeepsDirectories d') (hp : d.get? p = some .directory) :
    d'.get? p = some .directory := by
  obtain ⟨l, hl, he⟩ := Option.bind_eq_some_iff.1 hp
  exact Option.bind_eq_some_iff.2 ⟨l, locate_mono h hl, h l he⟩

theorem keepsDirectories_put (hl : d.entryAt? l ≠ some .directory) (e : DiskEntry) :
    d.KeepsDirectories (d.put l e) := by
  intro k hk
  rw [entryAt_put d (names_ne_nil hl), if_neg]
  · exact hk
  · rintro rfl
    exact hl hk

theorem locate_eq_some_iff : d.locate? p = some l
    ↔ p.isUsable = true ∧ p.pieces.foldlM d.follow? p.start = some l := by
  unfold locate?
  split_ifs with h <;> simp [h]

/-- An empty piece stays in a directory. -/
theorem foldlM_follow_blank (hl : d.entryAt? l = some .directory) {pieces : List String}
    (h : ∀ piece ∈ pieces, piece = "") : pieces.foldlM d.follow? l = some l := by
  induction pieces with
  | nil => rfl
  | cons piece pieces ih =>
    obtain rfl := h piece List.mem_cons_self
    have hfollow : d.follow? l "" = some l := by simp [follow?, hl]
    rw [List.foldlM_cons, hfollow]
    exact ih fun piece hmem => h piece (List.mem_cons_of_mem _ hmem)

theorem makeDirectory_eq_some (h : d.makeDirectory? p = some d') :
    d.get? p = some .directory ∧ d' = d
      ∨ ∃ l, d.locate? p.withoutSlashes = some l ∧ d.entryAt? l = none
        ∧ d' = d.put l .directory := by
  unfold makeDirectory? at h
  split_ifs at h with hp
  · exact .inl ⟨hp, (Option.some.inj h).symm⟩
  · obtain ⟨l, hl, h⟩ := Option.bind_eq_some_iff.1 h
    split_ifs at h with he
    exact .inr ⟨l, hl, he, (Option.some.inj h).symm⟩

theorem keepsDirectories_makeDirectory (h : d.makeDirectory? p = some d') :
    d.KeepsDirectories d' := by
  obtain ⟨-, rfl⟩ | ⟨l, -, he, rfl⟩ := makeDirectory_eq_some h
  · exact .refl d'
  · exact keepsDirectories_put (by simp [he]) _

/-- A directory that was made is there. -/
theorem get_makeDirectory (h : d.makeDirectory? p = some d')
    (hp : p.isUsable = true ∨ p.withoutSlashes = p) : d'.get? p = some .directory := by
  obtain ⟨hget, rfl⟩ | ⟨l, hl, he, rfl⟩ := makeDirectory_eq_some h
  · exact hget
  have hne : d.entryAt? l ≠ some .directory := by simp [he]
  have hdir : (d.put l .directory).entryAt? l = some .directory := by
    rw [entryAt_put d (names_ne_nil hne), if_pos rfl]
  obtain ⟨husable, hpieces⟩ := locate_eq_some_iff.1 (locate_mono (keepsDirectories_put hne _) hl)
  refine Option.bind_eq_some_iff.2 ⟨l, locate_eq_some_iff.2 ⟨?_, ?_⟩, hdir⟩
  · exact hp.elim id fun heq => heq ▸ husable
  · -- the slashes at the end stay in the new directory
    have hsplit : p.pieces = p.withoutSlashes.pieces
        ++ (p.pieces.reverse.takeWhile (· = "")).reverse := by
      rw [Path.withoutSlashes, ← List.reverse_append, List.takeWhile_append_dropWhile,
        List.reverse_reverse]
    have hstart : p.withoutSlashes.start = p.start := rfl
    rw [hsplit, List.foldlM_append, ← hstart, hpieces]
    refine foldlM_follow_blank hdir fun piece hmem => ?_
    simpa using List.mem_takeWhile_imp (List.mem_reverse.1 hmem)

/-- The directories of a path are there. -/
def Made (d : Disk) (p : Path) : Prop :=
  p = {} ∨ ∀ q ∈ p.parents ++ [p], d.get? q = some .directory

theorem Made.mono (h : d.Made p) (hd : d.KeepsDirectories d') : d'.Made p :=
  h.imp_right fun h q hq => hd.get (h q hq)

theorem foldlM_makeDirectory {ps : List Path} (h : ps.foldlM makeDirectory? d = some d')
    (hps : ∀ p ∈ ps, p.isUsable = true ∨ p.withoutSlashes = p) :
    d.KeepsDirectories d' ∧ ∀ p ∈ ps, d'.get? p = some .directory := by
  induction ps generalizing d with
  | nil =>
    obtain rfl := Option.some.inj h
    exact ⟨.refl d, by simp⟩
  | cons p ps ih =>
    rw [List.foldlM_cons] at h
    obtain ⟨d₁, h₁, h⟩ := Option.bind_eq_some_iff.1 h
    obtain ⟨hkeeps, hmade⟩ := ih h fun q hq => hps q (List.mem_cons_of_mem _ hq)
    refine ⟨(keepsDirectories_makeDirectory h₁).trans hkeeps, fun q hq => ?_⟩
    rcases List.mem_cons.1 hq with rfl | hq
    · exact hkeeps.get (get_makeDirectory h₁ (hps q List.mem_cons_self))
    · exact hmade q hq

theorem made_makeDirectories (h : d.makeDirectories? p = some d')
    (hp : p = {} ∨ p.isUsable = true) : d.KeepsDirectories d' ∧ d'.Made p := by
  unfold makeDirectories? at h
  split_ifs at h with hnil
  · obtain rfl := Option.some.inj h
    exact ⟨.refl d, .inl hnil⟩
  · obtain ⟨hkeeps, hmade⟩ := foldlM_makeDirectory h fun q hq => by
      rcases List.mem_append.1 hq with hq | hq
      · exact .inr (Path.withoutSlashes_of_mem_parents hq)
      · obtain rfl := List.mem_singleton.1 hq
        exact .inl (hp.resolve_left hnil)
    exact ⟨hkeeps, .inr hmade⟩

/-- What is there is not made again. -/
theorem makeDirectories_of_made (h : d.Made p) : d.makeDirectories? p = some d := by
  unfold makeDirectories?
  split_ifs with hnil
  · rfl
  have hall := h.resolve_left hnil
  generalize p.parents ++ [p] = ps at hall
  induction ps with
  | nil => rfl
  | cons q ps ih =>
    rw [List.foldlM_cons, makeDirectory?, if_pos (hall q List.mem_cons_self)]
    exact ih fun q hq => hall q (List.mem_cons_of_mem _ hq)

/-- The place where the files of a directory lie. -/
theorem Made.folder (h : d.Made p) :
    ∃ l, d.entryAt? l = some .directory ∧ p.front.foldlM d.follow? p.start = some l := by
  rcases h with rfl | h
  · exact ⟨{}, rfl, rfl⟩
  have hget : d.get? p = some .directory := h p (by simp)
  obtain ⟨l, hl, he⟩ := Option.bind_eq_some_iff.1 hget
  obtain ⟨-, hpieces⟩ := locate_eq_some_iff.1 hl
  refine ⟨l, he, ?_⟩
  rcases p.pieces_eq with heq | heq
  · exact heq ▸ hpieces
  · rw [heq, List.foldlM_append] at hpieces
    obtain ⟨k, hk, hfollow⟩ := Option.bind_eq_some_iff.1 hpieces
    have hkl : k = l := by
      by_cases hd : d.entryAt? k = some .directory
      · simpa [follow?, hd] using hfollow
      · simp [follow?, hd] at hfollow
    exact hkl ▸ hk

theorem locate_child (he : d.entryAt? l = some .directory)
    (hl : p.front.foldlM d.follow? p.start = some l) {name : String} (hname : Path.isName name)
    (hdots : name ≠ "" ∧ name ≠ "." ∧ name ≠ "..")
    (hu : Path.isUsable { p with pieces := p.front ++ [name] } = true) :
    d.locate? { p with pieces := p.front ++ [name] } = some (l.down name) := by
  refine locate_eq_some_iff.2 ⟨hu, ?_⟩
  have hstart : Path.start { p with pieces := p.front ++ [name] } = p.start := rfl
  rw [List.foldlM_append, hstart, hl]
  simp [follow?, he, hname, hdots]

end Disk

end EngineShell
