import EngineShell.Settings.Loading
import EngineShell.Storage.Entries
import Mathlib.Tactic

/-!
# Values laid over one another

`says?` tells of a value by itself what it makes of a path of keys when it is laid over another
value: it leaves what is there, or it puts something else there, or it takes it away.
`under?_layAll` says that the last entry of a layer that says anything about a path decides, and
that what is below the layer counts only where no entry does.
-/

namespace EngineShell

namespace SettingValue

/-- The value without what it holds, if it is a list or a map. -/
def outline : SettingValue → SettingValue
  | list _ => list []
  | map _ => map []
  | v => v

/-- The outline of what is under a path of keys. The path leads through maps only. -/
def under? (v : SettingValue) : List String → Option SettingValue
  | [] => some v.outline
  | key :: path => (v.get? key).bind (·.under? path)

mutual

/-- What a value that is laid over another makes of a path of keys: `none` if it leaves what is
there, and else what is there afterwards. -/
def says? : SettingValue → List String → Option (Option SettingValue)
  | map es, key :: path => entriesSay? es key path
  | v, [] => some (some v.outline)
  | _, _ :: _ => some none

def entriesSay? : List (String × SettingValue) → String → List String →
    Option (Option SettingValue)
  | [], _, _ => none
  | (name, v) :: es, key, path =>
    (entriesSay? es key path).or (if name = key then says? v path else none)

end

variable {v : SettingValue}

/-- The value that, laid over a map, does what setting a value along a path does. A position makes a
list of whatever is there. -/
def along (v : SettingValue) : List Step → SettingValue
  | [] => v
  | .key name :: steps => map [(name, along v steps)]
  | .position _ :: _ => list []

/-- Whether a path bears on a path of keys: it leads to its end, to something that holds it, or into
it. -/
def meets : List Step → List String → Bool
  | .key name :: steps, key :: path => name == key && meets steps path
  | _, _ => true

theorem lookup_putEntry (key name : String) (v : SettingValue) :
    ∀ es : List (String × SettingValue),
      (putEntry name v es).lookup key = if key = name then some v else es.lookup key
  | [] => lookup_cons_eq_ite (name, v) [] key
  | (k, w) :: es => by
    by_cases hk : k = name
    · rw [putEntry, if_pos hk, lookup_cons_eq_ite, lookup_cons_eq_ite, hk]
      split <;> rfl
    · rw [putEntry, if_neg hk, lookup_cons_eq_ite, lookup_cons_eq_ite,
        lookup_putEntry key name v es]
      by_cases hkey : key = k
      · rw [if_pos hkey, if_neg (hkey ▸ hk), if_pos hkey]
      · rw [if_neg hkey, if_neg hkey]

theorem under?_putEntry (key name : String) (path : List String) (v : SettingValue)
    (es : List (String × SettingValue)) :
    (map (putEntry name v es)).under? (key :: path)
      = if name = key then v.under? path else (map es).under? (key :: path) := by
  rw [under?, under?, get?, entries, lookup_putEntry]
  by_cases h : key = name
  · rw [if_pos h, if_pos h.symm]
    rfl
  · rw [if_neg h, if_neg (Ne.symm h)]
    rfl

theorem under?_entries (v : SettingValue) (key : String) (path : List String) :
    (map v.entries).under? (key :: path) = v.under? (key :: path) := by
  cases v <;> rfl

theorem outline_eq_map (hv : v.outline = map []) : ∃ es, v = map es := by
  cases v <;> simp_all [outline]

theorem exists_map_of_under? {key : String} {path : List String} {w : SettingValue}
    (h : v.under? (key :: path) = some w) : ∃ es, v = map es := by
  cases v <;> first | exact ⟨_, rfl⟩ | simp [under?, get?, entries] at h

theorem says?_nil (v : SettingValue) : v.says? [] = some (some v.outline) := by
  cases v <;> rfl

theorem outline_layEntries :
    ∀ (es m : List (String × SettingValue)), (layEntries (map m) es).outline = map []
  | [], _ => rfl
  | (key, v) :: es, m => by rw [layEntries, outline_layEntries es]

theorem isSome_says? (v : SettingValue) {path : List String} (h : path = []) :
    (v.says? path).isSome := by
  rw [h, says?_nil]
  rfl

/-- A map in which a value has been laid over what was under its key. -/
theorem under?_put {below w : SettingValue} {name : String} {path : List String}
    {said : Option (Option SettingValue)} (hsaid : path = [] → said.isSome)
    (hw : w.under? path = said.getD (((below.get? name).getD null).under? path)) (key : String) :
    (map (putEntry name w below.entries)).under? (key :: path)
      = (if name = key then said else none).getD (below.under? (key :: path)) := by
  rw [under?_putEntry, under?_entries]
  by_cases h : name = key
  · subst h
    rw [if_pos rfl, if_pos rfl, hw]
    rcases said with _ | said
    · rcases path with _ | ⟨k, path⟩
      · simp at hsaid
      · -- there is as little under a key that is missing as there is under one of no map
        simp only [Option.getD_none, under?]
        cases below.get? name <;> rfl
    · rfl
  · rw [if_neg h, if_neg h, Option.getD_none]

mutual

theorem under?_layOver (below : SettingValue) : ∀ (v : SettingValue) (path : List String),
    (layOver below v).under? path = (v.says? path).getD (below.under? path)
  | map es, key :: path => by
    rw [layOver, under?_layEntries, says?, under?_entries]
  | map es, [] => by
    rw [layOver, under?, outline_layEntries]
    rfl
  | null, path => by cases path <;> rfl
  | bool _, path => by cases path <;> rfl
  | int _, path => by cases path <;> rfl
  | number _, path => by cases path <;> rfl
  | text _, path => by cases path <;> rfl
  | list _, path => by cases path <;> rfl

theorem under?_layEntries (key : String) (path : List String) :
    ∀ (es : List (String × SettingValue)) (below : SettingValue),
      (layEntries below es).under? (key :: path)
        = (entriesSay? es key path).getD (below.under? (key :: path))
  | [], below => rfl
  | (name, v) :: es, below => by
    rw [layEntries, under?_layEntries key path es, entriesSay?, Option.getD_or,
      under?_put (isSome_says? v) (under?_layOver _ v path)]

end

theorem says?_along_key (v : SettingValue) (name key : String) (steps : List Step)
    (path : List String) : (v.along (.key name :: steps)).says? (key :: path)
      = if name = key then (v.along steps).says? path else none := by
  rw [along, says?, entriesSay?, entriesSay?, Option.none_or]

theorem under?_setPath (v : SettingValue) :
    ∀ (steps : List Step) (below : SettingValue) (path : List String),
      (below.setPath steps v).under? path
        = ((v.along steps).says? path).getD (below.under? path)
  | [], below, path => under?_layOver below v path
  | .key name :: steps, below, [] => rfl
  | .position i :: steps, below, [] => rfl
  | .position i :: steps, below, key :: path => rfl
  | .key name :: steps, below, key :: path => by
    rw [setPath, says?_along_key]
    exact under?_put (isSome_says? _) (under?_setPath v steps _ path) key

theorem says?_along_self (v : SettingValue) :
    ∀ path : List String, (v.along (path.map .key)).says? path = some (some v.outline)
  | [] => says?_nil v
  | key :: path => by
    rw [List.map_cons, says?_along_key, if_pos rfl, says?_along_self v path]

theorem says?_along_of_not_meets (v : SettingValue) :
    ∀ {steps : List Step} {path : List String}, meets steps path = false →
      (v.along steps).says? path = none
  | .key name :: steps, key :: path, h => by
    rw [says?_along_key]
    by_cases hname : name = key
    · rw [if_pos hname]
      exact says?_along_of_not_meets v (by simpa [meets, hname] using h)
    · rw [if_neg hname]
  | [], _, h => by simp [meets] at h
  | .position _ :: _, _, h => by simp [meets] at h
  | .key _ :: _, [], h => by simp [meets] at h

/-- A scalar at the end of a path takes away what is under it, and what is at the end of a path that
goes on is no scalar. -/
theorem says?_along_of_ne (hv : ∀ key path, v.says? (key :: path) = some none) :
    ∀ {steps : List Step} {path : List String}, meets steps path = true →
      steps ≠ path.map .key →
      (v.along steps).says? path = some none ∨ (v.along steps).says? path = some (some (map []))
        ∨ (v.along steps).says? path = some (some (list []))
  | [], [], _, hne => (hne rfl).elim
  | [], key :: path, _, _ => .inl (hv key path)
  | .position _ :: _, [], _, _ => .inr (.inr rfl)
  | .position _ :: _, _ :: _, _, _ => .inl rfl
  | .key _ :: _, [], _, _ => .inr (.inl rfl)
  | .key name :: steps, key :: path, h, hne => by
    obtain ⟨hname, hmeets⟩ : name = key ∧ meets steps path = true := by simpa [meets] using h
    subst hname
    rw [says?_along_key, if_pos rfl]
    exact says?_along_of_ne hv hmeets (by simpa using hne)

theorem isSome_says?_along {steps : List Step} {path : List String} (h : meets steps path = true)
    (hv : ∀ key path, v.says? (key :: path) = some none) :
    ((v.along steps).says? path).isSome := by
  by_cases hne : steps = path.map .key
  · rw [hne, says?_along_self]
    rfl
  · rcases says?_along_of_ne hv h hne with h | h | h <;> rw [h] <;> rfl

/-- Every path begins with a key. -/
theorem exists_pathOf (name : List Char) : ∃ key steps, pathOf name = .key key :: steps := by
  unfold pathOf
  rcases cutName name with _ | ⟨first, rest⟩
  · exact ⟨_, _, rfl⟩
  · dsimp only [Option.bind_some]
    rcases stepsAfter rest.length rest with _ | steps
    · exact ⟨_, _, rfl⟩
    · exact ⟨_, _, rfl⟩

end SettingValue

namespace Settings

open SettingValue

/-- What a layer makes of a path of keys: what its last entry does that says something about it. -/
def layerSays? (layer : List (List Char × SettingValue)) (path : List String) :
    Option (Option SettingValue) :=
  layer.reverse.findSome? fun (name, v) => (v.along (pathOf name)).says? path

theorem layerSays?_append (layer above : List (List Char × SettingValue)) (path : List String) :
    layerSays? (layer ++ above) path = (layerSays? above path).or (layerSays? layer path) := by
  rw [layerSays?, List.reverse_append, List.findSome?_append]
  rfl

theorem layerSays?_singleton (name : List Char) (v : SettingValue) (path : List String) :
    layerSays? [(name, v)] path = (v.along (pathOf name)).says? path := by
  rw [layerSays?, List.reverse_singleton, List.findSome?_singleton]

theorem under?_layAll (below : SettingValue) (layer : List (List Char × SettingValue))
    (path : List String) :
    (layAll below layer).under? path = (layerSays? layer path).getD (below.under? path) := by
  induction layer using List.reverseRecOn with
  | nil => rfl
  | append_singleton layer e ih =>
    rw [layAll, List.foldl_concat, ← layAll, under?_setPath, ih, layerSays?_append, Option.getD_or,
      layerSays?_singleton]

theorem outline_layAll (layer : List (List Char × SettingValue)) :
    ∀ es : List (String × SettingValue), (layAll (map es) layer).outline = map [] := by
  induction layer with
  | nil => exact fun _ => rfl
  | cons e layer ih =>
    intro es
    obtain ⟨name, v⟩ := e
    obtain ⟨key, steps, hpath⟩ := exists_pathOf name
    rw [layAll, List.foldl_cons, ← layAll]
    dsimp only
    rw [hpath]
    exact ih _

/-- Where no entry says anything about a key of a group, none makes anything but a map of the
group. -/
theorem layerSays?_group {layer : List (List Char × SettingValue)} {group key : String}
    (h : layerSays? layer [group, key] = none) :
    ∀ said, layerSays? layer [group] = some said → said = some (map []) := by
  intro said hsaid
  -- what stands below the layer under the key is still there afterwards, so the group is a map
  have hkey := under?_layAll (map [(group, map [(key, null)])]) layer [group, key]
  have hgroup := under?_layAll (map [(group, map [(key, null)])]) layer [group]
  have hthere : (map [(group, map [(key, null)])]).under? [group, key] = some null := by
    simp [under?, get?, entries, outline]
  rw [h, Option.getD_none, hthere] at hkey
  rw [hsaid, Option.getD_some] at hgroup
  obtain ⟨v, hv, hunder⟩ := Option.bind_eq_some_iff.1 hkey
  obtain ⟨es, rfl⟩ := exists_map_of_under? hunder
  rw [← hgroup, under?, hv]
  rfl

end Settings

end EngineShell
