import EngineShell.Proofs.Directories
import EngineShell.Proofs.Keeping

/-!
# Namespaces as maps

A store that is written to again and again reads, for each key of a namespace, the last value that
was written there (`reads_putAll`). This holds in memory and in files, where each write reads a file
and writes it anew: a namespace whose file reads back keeps the keys that a write does not name, no
write touches the file of another namespace, and a file that cannot be read is left as it is.
-/

namespace EngineShell

namespace Entries

theorem putAll_append (m news news' : Entries) :
    m.putAll (news ++ news') = (m.putAll news).putAll news' :=
  List.foldl_append

/-- The last value that is written counts. -/
theorem get_putAll (m news : Entries) (key : String) :
    (m.putAll news).get? key = (news.reverse.lookup key).or (m.get? key) := by
  induction news using List.reverseRecOn with
  | nil => rfl
  | append_singleton news e ih =>
    have hput : m.putAll (news ++ [e]) = put e.1 e.2 (m.putAll news) := putAll_append m news [e]
    rw [hput, get_put, ih, List.reverse_concat, List.lookup_cons]
    by_cases hkey : key = e.1
    · rw [if_pos hkey, beq_iff_eq.2 hkey]
      rfl
    · rw [if_neg hkey, beq_false_of_ne hkey]

end Entries

theorem Path.ofText_piece {text : String} (h : '/' ∉ text.toList) (hne : text ≠ "") :
    Path.ofText text = { pieces := [text] } := by
  unfold ofText
  split
  · exact (hne (String.toList_eq_nil_iff.1 ‹_›)).elim
  · exact (h (‹text.toList = _› ▸ List.mem_cons_self)).elim
  · dsimp only
    rw [Text.split_of_notMem h]
    simp

namespace Preferences

variable {root : Path} {d d' : Disk} {name : String} {m news : Entries}

/-- A plain name of a namespace, and a directory for its file: it is there or can be made, and no
such file turns up by that. -/
structure Admits (root : Path) (d : Disk) (name : String) : Prop where
  flat : '/' ∉ name.toList
  short : Path.isName (name ++ ".yaml") = true
  near : (filePath root name).isUsable = true
  made : (d.makeDirectories? root).map (·.get? (filePath root name))
    = some (d.get? (filePath root name))

/-- The name of a file is no dots. -/
theorem fileName_ne (name : String) {text : String} (h : text.length < 5) :
    name ++ ".yaml" ≠ text := by
  rintro rfl
  have : ".yaml".length = 5 := rfl
  rw [String.length_append] at h
  omega

theorem filePath_eq (h : '/' ∉ name.toList) :
    filePath root name = { root with pieces := root.front ++ [name ++ ".yaml"] } := by
  have hflat : '/' ∉ (name ++ ".yaml").toList := by
    rw [String.toList_append, List.mem_append, not_or]
    exact ⟨h, by decide⟩
  rw [filePath, Path.ofText_piece hflat (fileName_ne name (by decide)), Path.join_piece]

/-- What is loaded depends on the file alone. -/
theorem load_congr (h : d'.get? (filePath root name) = d.get? (filePath root name)) :
    load d' root name = load d root name := by
  have hexists : d'.exists? (filePath root name) = d.exists? (filePath root name) := by
    rw [Disk.exists?, h, Disk.exists?]
  have hread : d'.read? (filePath root name) = d.read? (filePath root name) := by
    rw [Disk.read?, h, Disk.read?]
  rw [load, hexists, hread, load]

theorem load_of_file {text : String} (h : d.get? (filePath root name) = some (.file text)) :
    load d root name = ofText text := by
  simp [load, Disk.exists?, Disk.read?, h]

/-- A namespace without a file, or with a blank one, holds nothing. -/
theorem load_of_blank (h : d.get? (filePath root name) = none
    ∨ ∃ text, d.get? (filePath root name) = some (.file text)
      ∧ (Text.trim text.toList).isEmpty = true) : load d root name = .ok [] := by
  rcases h with hnone | ⟨text, hfile, hblank⟩
  · simp [load, Disk.exists?, hnone]
  · rw [load_of_file hfile, ofText, if_pos hblank]

theorem get_ne_directory_of_load (h : load d root name = .ok m) :
    d.get? (filePath root name) ≠ some .directory := by
  intro hd
  simp [load, Disk.exists?, Disk.read?, hd] at h

/-- Where the directory is there, the file of a namespace has its place in it. -/
theorem Admits.locate (h : Admits root d name) {l : Location} (he : d'.entryAt? l = some .directory)
    (hl : root.front.foldlM d'.follow? root.start = some l) :
    d'.locate? (filePath root name) = some (l.down (name ++ ".yaml")) := by
  have hnear := h.near
  rw [filePath_eq h.flat] at hnear ⊢
  exact Disk.locate_child he hl h.short
    ⟨fileName_ne name (by decide), fileName_ne name (by decide), fileName_ne name (by decide)⟩ hnear

/-- What it takes to write a file: its directory is made, the file is written, and the files of
other namespaces stay. -/
theorem Admits.write (h : Admits root d name) (hload : load d root name = .ok m) (text : String) :
    ∃ d', ((d.makeDirectories? root).bind fun d => d.write? (filePath root name) text) = some d' ∧
      d'.get? (filePath root name) = some (.file text) ∧
      ∀ name', Admits root d name' → Admits root d' name' ∧
        (name' ≠ name → d'.get? (filePath root name') = d.get? (filePath root name')) := by
  obtain ⟨d₁, hd₁, hsame⟩ := Option.map_eq_some_iff.1 h.made
  have hroot : root = {} ∨ root.isUsable = true := by
    have hnear := h.near
    rw [filePath_eq h.flat] at hnear
    exact Path.isUsable_of_child hnear
  obtain ⟨-, hmade⟩ := Disk.made_makeDirectories hd₁ hroot
  obtain ⟨l, he, hl⟩ := hmade.folder
  have hplace := h.locate he hl
  have hfile : d₁.entryAt? (l.down (name ++ ".yaml")) ≠ some .directory := by
    intro hdir
    refine get_ne_directory_of_load hload ?_
    rw [← hsame, Disk.get?, hplace]
    exact hdir
  have hwrite : d₁.write? (filePath root name) text
      = some (d₁.put (l.down (name ++ ".yaml")) (.file text)) := by
    rw [Disk.write?, hplace, Option.bind_some, if_neg hfile]
  have hkeeps := Disk.keepsDirectories_put hfile (.file text)
  set d₂ := d₁.put (l.down (name ++ ".yaml")) (.file text) with hd₂
  refine ⟨d₂, by rw [hd₁, Option.bind_some, hwrite], Disk.get_write hwrite, ?_⟩
  refine fun name' h' => ⟨?_, ?_⟩
  · exact ⟨h'.flat, h'.short, h'.near, by
      rw [Disk.makeDirectories_of_made (hmade.mono hkeeps), Option.map_some]⟩
  · intro hne
    obtain ⟨_, hd₁', hsame'⟩ := Option.map_eq_some_iff.1 h'.made
    obtain rfl := Option.some.inj (hd₁.symm.trans hd₁')
    have hplace' := h'.locate he hl
    have hplace₂ := Disk.locate_mono hkeeps hplace'
    have hdown : l.down (name' ++ ".yaml") ≠ l.down (name ++ ".yaml") := by
      intro heq
      have hnames := List.append_cancel_left (congrArg Location.names heq)
      exact hne ((String.append_left_inj _).1 (List.cons.inj hnames).1)
    rw [← hsame', Disk.get?, Disk.get?, hplace₂, hplace', Option.bind_some, Option.bind_some, hd₂,
      Disk.entryAt_put d₁ (Disk.names_ne_nil hfile), if_neg hdown]

theorem ofText_eq_error {text : String} (h : ∀ m, ofText text ≠ .ok m) :
    ofText text = .error .parse := by
  unfold ofText at h ⊢
  split_ifs at h ⊢
  · exact (h _ rfl).elim
  · split at h
    · rfl
    · exact (h _ rfl).elim
    · split at h
      · exact (h _ rfl).elim
      · rfl

end Preferences

namespace PreferenceStore

open Preferences

variable {s s' : PreferenceStore} {d d' : Disk} {name : String} {m news : Entries}

/-- A name that the store can keep a namespace under. -/
def Admits (s : PreferenceStore) (d : Disk) (name : String) : Prop :=
  match s with
  | files root => Preferences.Admits root d name
  | _ => True

/-- A map that reads as it was written. In memory nothing is written. -/
def Rereads (s : PreferenceStore) (m : Entries) : Prop :=
  match s with
  | files _ => ofText (toText m) = .ok m
  | _ => True

/-- One namespace of a store is a new map, and the others are what they were. -/
structure Rewritten (s : PreferenceStore) (d : Disk) (name : String) (m : Entries)
    (s' : PreferenceStore) (d' : Disk) : Prop where
  entries : s'.entries d' name = .ok m
  others : ∀ name' ≠ name, s.Admits d name' → s'.entries d' name' = s.entries d name'
  admits : ∀ name', s.Admits d name' → s'.Admits d' name'
  rereads : ∀ m, s.Rereads m → s'.Rereads m
  files : ∀ root, s = .files root → s' = .files root ∧ ∀ name' ≠ name, s.Admits d name' →
    d'.get? (filePath root name') = d.get? (filePath root name')

theorem put_of_ok (h : s.Admits d name) (hm : s.entries d name = .ok m)
    (hr : s.Rereads (m.putAll news)) :
    ∃ s' d', s.put d name news = .ok (s', d') ∧ Rewritten s d name (m.putAll news) s' d' := by
  cases s with
  | memory namespaces =>
    obtain rfl := Except.ok.inj hm
    refine ⟨_, _, rfl, ?_, fun name' hne _ => ?_, fun _ _ => trivial, fun _ _ => trivial, ?_⟩
    · exact congrArg Except.ok ((namespaceOf_replace _ _ _ _).trans (if_pos rfl))
    · exact congrArg Except.ok ((namespaceOf_replace _ _ _ _).trans (if_neg hne))
    · intro root heq
      cases heq
  | files root =>
    obtain ⟨d', hwrite, hfile, hothers⟩ := h.write hm (toText (m.putAll news))
    refine ⟨files root, d', ?_, ?_, fun name' hne h' => ?_, fun name' h' => (hothers name' h').1,
      fun _ hm => hm, ?_⟩
    · rw [put, show load d root name = .ok m from hm]
      simp only [Except.bind, hwrite]
    · exact (load_of_file hfile).trans hr
    · exact load_congr ((hothers name' h').2 hne)
    · intro root' heq
      obtain rfl := PreferenceStore.files.inj heq
      exact ⟨rfl, fun name' hne h' => (hothers name' h').2 hne⟩
  | failing => cases hm

/-- What cannot be read is not written. -/
theorem put_of_error {e : StoreError} (h : s.entries d name = .error e) :
    s.put d name news = .error e := by
  cases s with
  | memory namespaces => cases h
  | files root =>
    rw [put, show load d root name = .error e from h]
    rfl
  | failing =>
    obtain rfl := Except.error.inj h
    rfl

/-- Write several times. A write that fails changes nothing. -/
def putAll (s : PreferenceStore) (d : Disk) (puts : List (String × Entries)) :
    PreferenceStore × Disk :=
  puts.foldl (fun r p => (r.1.put r.2 p.1 p.2).toOption.getD r) (s, d)

theorem putAll_concat (s : PreferenceStore) (d : Disk) (puts : List (String × Entries))
    (p : String × Entries) : s.putAll d (puts ++ [p])
      = (((s.putAll d puts).1.put (s.putAll d puts).2 p.1 p.2).toOption).getD
        (s.putAll d puts) := by
  rw [putAll, List.foldl_append, List.foldl_cons, List.foldl_nil, putAll]

/-- What is written to a namespace, in order. -/
def writes (puts : List (String × Entries)) (name : String) : Entries :=
  (puts.filter fun p => p.1 = name).flatMap (·.2)

/-- The last value that is written under a key of a namespace. -/
def last? (puts : List (String × Entries)) (name key : String) : Option String :=
  (writes puts name).reverse.lookup key

theorem writes_concat (puts : List (String × Entries)) (p : String × Entries) (name : String) :
    writes (puts ++ [p]) name = writes puts name ++ if p.1 = name then p.2 else [] := by
  rw [writes, List.filter_append, List.flatMap_append, writes]
  split_ifs with h <;> simp [h]

/-- Every map that is written on the way reads as it was written. -/
def RereadsAll (s : PreferenceStore) (d : Disk) (puts : List (String × Entries)) : Prop :=
  ∀ before ∈ puts.inits, ∀ p ∈ before, ∀ m, s.entries d p.1 = .ok m →
    s.Rereads (m.putAll (writes before p.1))

/-- Each namespace has become what it was with everything on top that was written to it. A
namespace that could not be read has not changed. -/
structure Served (s : PreferenceStore) (d : Disk) (puts : List (String × Entries))
    (s' : PreferenceStore) (d' : Disk) : Prop where
  entries : ∀ name, s.Admits d name →
    s'.entries d' name = (s.entries d name).map fun m => m.putAll (writes puts name)
  admits : ∀ name, s.Admits d name → s'.Admits d' name
  rereads : ∀ m, s.Rereads m → s'.Rereads m
  files : ∀ root, s = .files root → s' = .files root ∧ ∀ name, s.Admits d name →
    (name ∈ puts.map (·.1) → ∃ e, s.entries d name = .error e) →
    d'.get? (filePath root name) = d.get? (filePath root name)

namespace Served

variable {puts : List (String × Entries)}

theorem nil (s : PreferenceStore) (d : Disk) : Served s d [] s d where
  entries name _ := by cases s.entries d name <;> rfl
  admits _ h := h
  rereads _ h := h
  files _ h := ⟨h, fun _ _ _ => rfl⟩

/-- A write to a namespace that could be read. -/
theorem written {p : String × Entries} {s'' : PreferenceStore} {d'' : Disk}
    (h : Served s d puts s' d') (hm : s.entries d p.1 = .ok m)
    (hw : Rewritten s' d' p.1 (m.putAll (writes (puts ++ [p]) p.1)) s'' d'') :
    Served s d (puts ++ [p]) s'' d'' where
  entries name hname := by
    by_cases hp : name = p.1
    · subst hp
      rw [hw.entries, hm]
      rfl
    · rw [hw.others name hp (h.admits name hname), h.entries name hname, writes_concat,
        if_neg (Ne.symm hp), List.append_nil]
  admits name hname := hw.admits name (h.admits name hname)
  rereads m hr := hw.rereads m (h.rereads m hr)
  files root hroot := by
    obtain ⟨hs', hfiles⟩ := h.files root hroot
    obtain ⟨hs'', hfiles'⟩ := hw.files root hs'
    refine ⟨hs'', fun name hname hkept => ?_⟩
    have hp : name ≠ p.1 := by
      rintro rfl
      obtain ⟨e, he⟩ := hkept (by simp)
      rw [hm] at he
      cases he
    rw [hfiles' name hp (h.admits name hname)]
    exact hfiles name hname fun hmem => hkept (by simp [hmem])

/-- A write to a namespace that could not be read. -/
theorem refused {p : String × Entries} {e : StoreError} (h : Served s d puts s' d')
    (he : s.entries d p.1 = .error e) : Served s d (puts ++ [p]) s' d' where
  entries name hname := by
    by_cases hp : p.1 = name
    · subst hp
      rw [h.entries _ hname, he]
      rfl
    · rw [h.entries name hname, writes_concat, if_neg hp, List.append_nil]
  admits := h.admits
  rereads := h.rereads
  files root hroot := ⟨(h.files root hroot).1, fun name hname hkept =>
    (h.files root hroot).2 name hname fun hmem => hkept (by simp [hmem])⟩

/-- The next write is answered like the first one would be. -/
theorem put (h : Served s d puts s' d') (hname : s.Admits d name) (hm : s.entries d name = .ok m)
    (hr : s.Rereads (m.putAll (writes (puts ++ [(name, news)]) name))) :
    ∃ s'' d'', s'.put d' name news = .ok (s'', d'')
      ∧ Served s d (puts ++ [(name, news)]) s'' d'' := by
  have hm' : s'.entries d' name = .ok (m.putAll (writes puts name)) := by
    rw [h.entries name hname, hm]
    rfl
  have happend : (m.putAll (writes puts name)).putAll news
      = m.putAll (writes (puts ++ [(name, news)]) name) := by
    rw [writes_concat, if_pos rfl, Entries.putAll_append]
  obtain ⟨s'', d'', hput, hw⟩ :=
    put_of_ok (h.admits name hname) hm' (happend ▸ h.rereads _ hr)
  exact ⟨s'', d'', hput, h.written hm (happend ▸ hw)⟩

end Served

theorem served_putAll {puts : List (String × Entries)} (hputs : ∀ p ∈ puts, s.Admits d p.1)
    (hread : s.RereadsAll d puts) :
    Served s d puts (s.putAll d puts).1 (s.putAll d puts).2 := by
  induction puts using List.reverseRecOn with
  | nil => exact .nil s d
  | append_singleton puts p ih =>
    have h := ih (fun q hq => hputs q (by simp [hq])) fun before hb =>
      hread before ((List.mem_inits _ _).2 (((List.mem_inits _ _).1 hb).trans
        (List.prefix_append _ _)))
    rw [putAll_concat]
    have hname := hputs p (by simp)
    rcases hm : s.entries d p.1 with e | m
    · have he : (s.putAll d puts).1.entries (s.putAll d puts).2 p.1 = .error e := by
        rw [h.entries p.1 hname, hm]
        rfl
      rw [put_of_error he]
      exact h.refused hm
    · have hr := hread (puts ++ [p]) ((List.mem_inits _ _).2 List.prefix_rfl) p (by simp) m hm
      obtain ⟨s'', d'', hput, hserved⟩ := h.put hname hm hr
      rw [hput]
      exact hserved

theorem Served.get {puts : List (String × Entries)} (h : Served s d puts s' d')
    (hname : s.Admits d name) (key : String) : s'.get d' name key
      = (s.entries d name).map fun m => (last? puts name key).or (m.get? key) := by
  rw [PreferenceStore.get, h.entries name hname]
  cases s.entries d name with
  | error e => rfl
  | ok m => exact congrArg Except.ok (Entries.get_putAll m _ key)

theorem prefill_eq {f : String → Option String}
    (h : ∀ key, s.get d loginNamespace key = .ok (f key)) :
    s.prefill d = .ok { username := f "u", secret := f "p", repository := f "r" } := by
  simp only [prefill, h]
  rfl

/-- What a store that has been written to shows, and what it does next. -/
structure Reads (s : PreferenceStore) (d : Disk) (puts : List (String × Entries))
    (s' : PreferenceStore) (d' : Disk) : Prop where
  fresh : ∀ name key, s.Admits d name → s.entries d name = .ok [] →
    s'.get d' name key = .ok (last? puts name key)
  blank : ∀ root name key, s = .files root → s.Admits d name →
    (d.get? (filePath root name) = none ∨ ∃ text, d.get? (filePath root name) = some (.file text)
      ∧ (Text.trim text.toList).isEmpty = true) →
    s'.get d' name key = .ok (last? puts name key)
  get : ∀ name key, s.Admits d name → s'.get d' name key
    = (s.entries d name).map fun m => (last? puts name key).or (m.get? key)
  put : ∀ name news m, s.Admits d name → s.entries d name = .ok m →
    s.Rereads (m.putAll (writes (puts ++ [(name, news)]) name)) →
    ∃ s'' d'', s'.put d' name news = .ok (s'', d'')
  corrupt : ∀ root name text, s = .files root → s.Admits d name →
    d.read? (filePath root name) = some text → (∀ m, ofText text ≠ .ok m) →
    (∀ key, s'.get d' name key = .error .parse) ∧ (∀ news, s'.put d' name news = .error .parse) ∧
      d'.read? (filePath root name) = some text
  untouched : ∀ root name, s = .files root → s.Admits d name → name ∉ puts.map (·.1) →
    d'.get? (filePath root name) = d.get? (filePath root name)
  /-- A store in memory that held the same reads the same. -/
  agrees : ∀ namespaces name, s.Admits d name →
    (∀ key, s.get d name key = .ok ((namespaceOf namespaces name).get? key)) →
    ∀ key, s'.get d' name key = ((memory namespaces).putAll d puts).1.get
      ((memory namespaces).putAll d puts).2 name key
  /-- Only the fields whose keys are there are filled in. -/
  prefill : ∀ fields m, s.Admits d loginNamespace → s.entries d loginNamespace = .ok m →
    ∃ p, s'.prefill d' = .ok p ∧ p.applyTo fields = {
      username := ((last? puts loginNamespace "u").or (m.get? "u")).getD fields.username
      secret := ((last? puts loginNamespace "p").or (m.get? "p")).getD fields.secret
      repository := ((last? puts loginNamespace "r").or (m.get? "r")).getD fields.repository }
  persist : ∀ c m, s.Admits d loginNamespace → s.entries d loginNamespace = .ok m →
    s.Rereads (m.putAll (writes (puts ++ [(loginNamespace, loginEntries c)]) loginNamespace)) →
    ∃ s'' d'' p, s'.persist d' c = .ok (s'', d'') ∧ s''.prefill d'' = .ok p ∧
      ∀ fields, p.applyTo fields = c

/-- A file that is there and holds no map cannot be loaded. -/
theorem entries_of_corrupt {root : Path} {text : String}
    (hfile : d.read? (filePath root name) = some text) (htext : ∀ m, ofText text ≠ .ok m) :
    (files root).entries d name = .error .parse := by
  have hget : d.get? (filePath root name) = some (.file text) := by
    unfold Disk.read? at hfile
    split at hfile
    · exact ‹d.get? _ = _›.trans (by rw [Option.some.inj hfile])
    · cases hfile
  exact (load_of_file hget).trans (ofText_eq_error htext)

namespace Served

variable {puts : List (String × Entries)}

theorem corrupt {root : Path} (h : Served (.files root) d puts s' d')
    (hname : Admits (.files root) d name) {text : String}
    (hfile : d.read? (filePath root name) = some text) (htext : ∀ m, ofText text ≠ .ok m) :
    (∀ key, s'.get d' name key = .error .parse) ∧ (∀ news, s'.put d' name news = .error .parse) ∧
      d'.read? (filePath root name) = some text := by
  have he := entries_of_corrupt hfile htext
  refine ⟨fun key => ?_, fun news => put_of_error ?_, ?_⟩
  · rw [h.get hname, he]
    rfl
  · rw [h.entries name hname, he]
    rfl
  · rw [Disk.read?, (h.files root rfl).2 name hname fun _ => ⟨_, he⟩]
    exact hfile

/-- What two stores read is the same after the same writes if it was the same before. -/
theorem get_eq {t t' : PreferenceStore} {e e' : Disk} (h : Served s d puts s' d')
    (h' : Served t e puts t' e') (hname : s.Admits d name) (hname' : t.Admits e name)
    (hsame : ∀ key, s.get d name key = t.get e name key) (key : String) :
    s'.get d' name key = t'.get e' name key := by
  rw [h.get hname, h'.get hname']
  have hkey := hsame key
  unfold PreferenceStore.get at hkey
  rcases hm : s.entries d name with _ | m <;> rcases hm' : t.entries e name with _ | m' <;>
    rw [hm, hm'] at hkey
  · exact congrArg Except.error (Except.error.inj hkey)
  · cases hkey
  · cases hkey
  · exact congrArg (fun t => Except.ok ((last? puts name key).or t)) (Except.ok.inj hkey)

/-- Credentials that are kept fill in the whole form. -/
theorem persist (h : Served s d puts s' d') (hname : s.Admits d loginNamespace)
    (hm : s.entries d loginNamespace = .ok m) {c : Credentials}
    (hr : s.Rereads
      (m.putAll (writes (puts ++ [(loginNamespace, loginEntries c)]) loginNamespace))) :
    ∃ s'' d'' p, s'.persist d' c = .ok (s'', d'') ∧ s''.prefill d'' = .ok p ∧
      ∀ fields, p.applyTo fields = c := by
  obtain ⟨s'', d'', hput, h''⟩ := h.put hname hm hr
  refine ⟨s'', d'', _, hput, prefill_eq fun key => (h''.get hname key).trans (by rw [hm]; rfl),
    fun fields => ?_⟩
  have hlast : ∀ key, (last? (puts ++ [(loginNamespace, loginEntries c)]) loginNamespace key).or
      (m.get? key) = (c.entry? loginNamespace key).or
        ((m.putAll (writes puts loginNamespace)).get? key) := by
    intro key
    rw [last?, ← Entries.get_putAll, writes_concat, if_pos rfl, Entries.putAll_append]
    exact PreferenceStore.get_putAll _ c key
  simp only [hlast]
  rfl

end Served

/-- Whatever is written, a store that reads what it has written itself reads each key of a namespace
as it was last written. -/
theorem reads_putAll {puts : List (String × Entries)} (hputs : ∀ p ∈ puts, s.Admits d p.1)
    (hread : s.RereadsAll d puts) :
    Reads s d puts (s.putAll d puts).1 (s.putAll d puts).2 := by
  have h := served_putAll hputs hread
  have fresh : ∀ name key, s.Admits d name → s.entries d name = .ok [] →
      (s.putAll d puts).1.get (s.putAll d puts).2 name key = .ok (last? puts name key) := by
    intro name key hname hm
    rw [h.get hname, hm]
    exact congrArg Except.ok Option.or_none
  refine
    { fresh
      blank := fun root name key hroot hname hblank =>
        fresh name key hname (hroot ▸ load_of_blank hblank)
      get := fun name key hname => h.get hname key
      put := fun name news m hname hm hr => ?_
      corrupt := ?_
      untouched := fun root name hroot hname hmem =>
        (h.files root hroot).2 name hname fun hmem' => (hmem hmem').elim
      agrees := fun namespaces name hname hsame key => ?_
      prefill := fun fields m hname hm => ?_
      persist := fun c m hname hm hr => h.persist hname hm hr }
  · obtain ⟨s'', d'', hput, -⟩ := h.put hname hm hr
    exact ⟨s'', d'', hput⟩
  · rintro root name text rfl hname hfile htext
    exact h.corrupt hname hfile htext
  · have hmemory : Served (memory namespaces) d puts _ _ :=
      served_putAll (fun _ _ => trivial) fun _ _ _ _ _ _ => trivial
    exact h.get_eq hmemory hname trivial hsame key
  · exact ⟨_, prefill_eq fun key => (h.get hname key).trans (by rw [hm]; rfl), rfl⟩

/-- A directory of preferences with a file that holds no map. -/
def drawer : Disk where
  entries := [({ names := ["prefs"] }, .directory),
    ({ names := ["prefs", "torn.yaml"] }, .file "[not, a, map")]

/-- Writes with a key twice, with no key, and to a file that cannot be read. -/
def jottings : List (String × Entries) :=
  [("login", [("u", "ann"), ("r", "fly: 1"), ("u", "ben")]), ("login", []), ("torn", [("u", "x")]),
    ("notes", [("u", "")]), ("login", [("r", "fly")])]

def cabinet : PreferenceStore :=
  .files { pieces := ["prefs"] }

/-- The last writes count, and the file that cannot be read is as it was. -/
theorem reads_jottings : (∀ p ∈ jottings, cabinet.Admits drawer p.1)
      ∧ cabinet.RereadsAll drawer jottings
      ∧ (cabinet.putAll drawer jottings).1.get (cabinet.putAll drawer jottings).2 "login" "u"
        = .ok (some "ben")
      ∧ (cabinet.putAll drawer jottings).1.get (cabinet.putAll drawer jottings).2 "notes" "r"
        = .ok none
      ∧ (cabinet.putAll drawer jottings).1.put (cabinet.putAll drawer jottings).2 "torn" []
        = .error .parse
      ∧ (cabinet.putAll drawer jottings).2.read? (filePath { pieces := ["prefs"] } "torn")
        = some "[not, a, map" := by
  have hadmits : ∀ name ∈ ["login", "notes", "torn"], cabinet.Admits drawer name := by
    have hall : ∀ name ∈ ["login", "notes", "torn"], '/' ∉ name.toList ∧
        Path.isName (name ++ ".yaml") = true ∧
        (filePath { pieces := ["prefs"] } name).isUsable = true ∧
        (drawer.makeDirectories? { pieces := ["prefs"] }).map
            (·.get? (filePath { pieces := ["prefs"] } name))
          = some (drawer.get? (filePath { pieces := ["prefs"] } name)) := by decide +kernel
    intro name hname
    obtain ⟨hflat, hshort, hnear, hmade⟩ := hall name hname
    exact ⟨hflat, hshort, hnear, hmade⟩
  have hread : cabinet.RereadsAll drawer jottings := by
    have hall : ∀ before ∈ jottings.inits, ∀ p ∈ before,
        cabinet.entries drawer p.1 = .error .parse ∨ cabinet.entries drawer p.1 = .ok [] ∧
          ofText (toText (Entries.putAll [] (writes before p.1)))
            = .ok (Entries.putAll [] (writes before p.1)) := by decide +kernel
    intro before hb p hp m hm
    obtain he | ⟨he, hr⟩ := hall before hb p hp
    · cases hm.symm.trans he
    · obtain rfl := Except.ok.inj (hm.symm.trans he)
      exact hr
  have hputs : ∀ p ∈ jottings, cabinet.Admits drawer p.1 := by
    have hnames : ∀ p ∈ jottings, p.1 ∈ ["login", "notes", "torn"] := by decide
    exact fun p hp => hadmits p.1 (hnames p hp)
  have h := reads_putAll hputs hread
  have htext : ∀ m, ofText "[not, a, map" ≠ .ok m := by
    have he : ofText "[not, a, map" = .error .parse := by decide +kernel
    intro m hm
    cases hm.symm.trans he
  obtain ⟨-, hput, hkept⟩ := h.corrupt _ "torn" "[not, a, map" rfl (hadmits _ (by decide))
    (by decide +kernel) htext
  exact ⟨hputs, hread, h.fresh "login" "u" (hadmits _ (by decide)) (by decide +kernel),
    h.fresh "notes" "r" (hadmits _ (by decide)) (by decide +kernel), hput [], hkept⟩

end PreferenceStore

end EngineShell
