import EngineShell.Proofs.Fields
import EngineShell.Proofs.Variables

/-!
# Settings from a file and an environment

Each field of loaded settings is decided apart from the others (`Layered`): by the last variable
that leads to it, else by the file, else by its default. A text in a variable is read as a truth
value or a number if it looks like one, so a field that holds a text has the text of its variable
exactly if the text is spelled as the program spells what it was read as (`IsVerbatim`).
-/

namespace EngineShell

namespace SettingValue

theorem says?_ofVariable (text key : String) (path : List String) :
    (ofVariable text).says? (key :: path) = some none := by
  have h := readsAs_ofVariable text
  generalize ofVariable text = v at h
  cases h <;> rfl

theorem outline_ofVariable (text : String) : (ofVariable text).outline = ofVariable text := by
  have h := readsAs_ofVariable text
  generalize ofVariable text = v at h
  cases h <;> rfl

end SettingValue

namespace Settings

open SettingValue

/-- The variables of an environment that are settings, by the names of the settings. -/
def named (env : Environment) : List (List Char × String) :=
  env.filterMap fun (name, content) => (settingName? name).map (·, content)

/-- The last variable that bears on a path of keys, as its own path and its text. -/
def lastOn? (env : Environment) (path : List String) : Option (List Step × String) :=
  ((named env).map fun x => (pathOf x.1, x.2)).reverse.find? fun x => meets x.1 path

/-- The entries of a file as a layer. -/
def asLayer (es : List (String × SettingValue)) : List (List Char × SettingValue) :=
  es.map fun (name, value) => (name.toList, value)

/-- What the settings are read from: the entries of the file with the variables laid over them. -/
def laid (es : List (String × SettingValue)) (env : Environment) : SettingValue :=
  layAll (layAll (map []) (asLayer es)) (environmentLayer env)

theorem meets_of_lastOn? {env : Environment} {path : List String} {x : List Step × String}
    (h : lastOn? env path = some x) : meets x.1 path = true :=
  List.find?_some (p := fun x : List Step × String => meets x.1 path) h

theorem environmentLayer_eq (env : Environment) :
    environmentLayer env = (named env).map fun x => (x.1, ofVariable x.2) := by
  rw [named, List.map_filterMap, environmentLayer]
  congr 1
  funext ⟨name, content⟩
  dsimp only
  cases settingName? name <;> rfl

theorem findSome?_eq_bind {α β : Type} {l : List α} {f : α → Option β} {p : α → Bool}
    (h : ∀ x, (f x).isSome = p x) : l.findSome? f = (l.find? p).bind f := by
  induction l with
  | nil => rfl
  | cons x l ih =>
    rw [List.findSome?_cons, List.find?_cons, ← h x]
    cases hx : f x with
    | none => exact ih
    | some y => exact hx.symm

/-- What an environment makes of a path is decided by the last variable that bears on it. -/
theorem layerSays?_environmentLayer (env : Environment) (path : List String) :
    layerSays? (environmentLayer env) path
      = (lastOn? env path).bind fun x => ((ofVariable x.2).along x.1).says? path := by
  have hsome : ∀ x : List Step × String,
      (((ofVariable x.2).along x.1).says? path).isSome = meets x.1 path := by
    intro x
    cases hmeets : meets x.1 path with
    | false => rw [says?_along_of_not_meets _ hmeets]; rfl
    | true => exact isSome_says?_along hmeets (says?_ofVariable x.2)
  rw [lastOn?, ← findSome?_eq_bind hsome, layerSays?, environmentLayer_eq, ← List.map_reverse,
    ← List.map_reverse, List.findSome?_map, List.findSome?_map]
  rfl

theorem outline_laid (es : List (String × SettingValue)) (env : Environment) :
    (laid es env).outline = map [] := by
  obtain ⟨es', h⟩ := outline_eq_map (outline_layAll (asLayer es) [])
  rw [laid, h]
  exact outline_layAll _ _

theorem under?_laid (es : List (String × SettingValue)) (env : Environment) (key : String)
    (path : List String) :
    (laid es env).under? (key :: path) = ((layerSays? (environmentLayer env) (key :: path)).or
      (layerSays? (asLayer es) (key :: path))).join := by
  rw [laid, under?_layAll, under?_layAll]
  cases layerSays? (environmentLayer env) (key :: path) with
  | some said => rfl
  | none => cases layerSays? (asLayer es) (key :: path) <;> rfl

/-- Where the fields of settings come from that are loaded from the entries of a file and from an
environment. -/
structure Layered (es : List (String × SettingValue)) (env : Environment) (s : Settings) :
    Prop where
  /-- A field has what the last variable that bears on it says, if it leads to the field. -/
  overridden : ∀ f content, lastOn? env f.path = some (f.steps, content) →
    f.read (ofVariable content) = some (s.get f)
  /-- A field that holds a text has the text of the variable exactly if it is spelled as it is
  read. -/
  verbatim : ∀ f ∈ Setting.texts, ∀ content, lastOn? env f.path = some (f.steps, content) →
    (s.get f = .text content ↔ IsVerbatim content)
  /-- A field on which no variable bears has what the file says. -/
  filed : ∀ f v, lastOn? env f.path = none → layerSays? (asLayer es) f.path = some (some v) →
    f.read v = some (s.get f)
  /-- A field of which nothing is said has its default. -/
  defaulted : ∀ f, lastOn? env f.path = none → layerSays? (asLayer es) f.path = none →
    s.get f = f.default
  /-- A field that has lost its place, because its group is set as a whole or as a list, has its
  default or what is at its position in the list. -/
  dislodged : ∀ f, ((∃ path content, lastOn? env f.path = some (path, content) ∧ path ≠ f.steps)
      ∨ lastOn? env f.path = none ∧ layerSays? (asLayer es) f.path = some none) →
    ((laid es env).itemAt? f.place).elim (some f.default) f.read = some (s.get f)

variable {es : List (String × SettingValue)} {env : Environment} {s : Settings}

theorem under?_laid_path (es : List (String × SettingValue)) (env : Environment) (f : Setting) :
    (laid es env).under? f.path = ((layerSays? (environmentLayer env) f.path).or
      (layerSays? (asLayer es) f.path)).join := by
  cases f <;> exact under?_laid es env _ _

/-- A group has no items if nothing is said of one of its fields. -/
theorem itemAt?_laid {f : Setting} (henv : layerSays? (environmentLayer env) f.path = none)
    (hfile : layerSays? (asLayer es) f.path = none) : (laid es env).itemAt? f.place = none := by
  rcases f.place_cases with ⟨⟨name, i⟩, hf⟩ | ⟨⟨group, i⟩, ⟨name, j⟩, hf⟩
  · rw [hf]
    rfl
  · rw [Setting.path, hf] at henv hfile
    have hgroup : ∀ v, (laid es env).under? [group] = some v → v = map [] := by
      intro v hv
      rw [under?_laid] at hv
      rcases hsaid : layerSays? (environmentLayer env) [group] with _ | said
      · rcases hsaid' : layerSays? (asLayer es) [group] with _ | said
        · simp [hsaid, hsaid'] at hv
        · simpa [hsaid, hsaid', layerSays?_group hfile _ hsaid', eq_comm] using hv
      · simpa [hsaid, layerSays?_group henv _ hsaid, eq_comm] using hv
    rw [hf, itemAt?]
    rcases hget : (laid es env).get? group with _ | v
    · rfl
    · have hv : v.outline = map [] := hgroup _ (by rw [under?, hget]; rfl)
      rw [Option.bind_some, items_of_outline hv, List.getElem?_nil]

theorem layerSays?_of_lastOn?_none {path : List String} (h : lastOn? env path = none) :
    layerSays? (environmentLayer env) path = none := by
  rw [layerSays?_environmentLayer, h, Option.bind_none]

theorem under?_laid_of_lastOn? {f : Setting} {content : String}
    (h : lastOn? env f.path = some (f.steps, content)) :
    (laid es env).under? f.path = some (ofVariable content) := by
  rw [under?_laid_path, layerSays?_environmentLayer, h, Option.bind_some, Setting.steps,
    says?_along_self, outline_ofVariable]
  rfl

/-- A field that can be read has nothing at its place after a variable that bears on it and does not
lead to it: what the variable leaves there could only be a map or a list. -/
theorem under?_laid_of_ne (h : ofValue? (laid es env) = some s) {f : Setting} {path : List Step}
    {content : String} (hlast : lastOn? env f.path = some (path, content)) (hne : path ≠ f.steps) :
    (laid es env).under? f.path = none := by
  have hunder := under?_laid_path es env f
  rw [layerSays?_environmentLayer, hlast, Option.bind_some] at hunder
  rcases says?_along_of_ne (says?_ofVariable content) (meets_of_lastOn? hlast) hne
    with hsaid | hsaid | hsaid <;> rw [hsaid] at hunder
  · exact hunder
  · have hread := Setting.get_of_under? h (outline_laid es env) hunder
    rw [Setting.read_map] at hread
    cases hread
  · have hread := Setting.get_of_under? h (outline_laid es env) hunder
    rw [Setting.read_list] at hread
    cases hread

/-- A field that holds a text has a given text exactly if that text is what it was read from. -/
theorem get_eq_text_iff {f : Setting} (hf : f ∈ Setting.texts) {v : SettingValue} {content : String}
    (hread : f.read v = some (s.get f)) :
    s.get f = .text content ↔ v.asText? = some content := by
  rw [Setting.read_of_mem_texts hf] at hread
  constructor
  · intro hs
    obtain ⟨t, ht, heq⟩ := Option.map_eq_some_iff.1 hread
    rw [ht, SettingValue.text.inj (heq.trans hs)]
  · intro ht
    rw [ht] at hread
    exact (Option.some.inj hread).symm

theorem layered_of_ofValue? (h : ofValue? (laid es env) = some s) : Layered es env s := by
  have hmap := outline_laid es env
  have overridden : ∀ f content, lastOn? env f.path = some (f.steps, content) →
      f.read (ofVariable content) = some (s.get f) :=
    fun f content hlast => Setting.get_of_under? h hmap (under?_laid_of_lastOn? hlast)
  refine
    { overridden
      verbatim := fun f hf content hlast => ?_
      filed := fun f v hlast hfile => Setting.get_of_under? h hmap ?_
      defaulted := fun f hlast hfile => ?_
      dislodged := fun f hf => Setting.get_of_missing h hmap ?_ }
  · rw [get_eq_text_iff hf (overridden f content hlast), asText?_ofVariable_iff]
  · rw [under?_laid_path, layerSays?_of_lastOn?_none hlast, hfile]
    rfl
  · have hget := Setting.get_of_missing h hmap (f := f)
      (by rw [under?_laid_path, layerSays?_of_lastOn?_none hlast, hfile]; rfl)
    rw [itemAt?_laid (layerSays?_of_lastOn?_none hlast) hfile] at hget
    exact (Option.some.inj hget).symm
  · rcases hf with ⟨path, content, hlast, hne⟩ | ⟨hlast, hfile⟩
    · exact under?_laid_of_ne h hlast hne
    · rw [under?_laid_path, layerSays?_of_lastOn?_none hlast, hfile]
      rfl

theorem load_eq_ok {file : Option String} (h : load file env = .ok s) :
    ∃ es, fileLayer? (file.getD "") = some es ∧ ofValue? (laid es env) = some s := by
  unfold load at h
  cases hfile : fileLayer? (file.getD "") with
  | none => rw [hfile] at h; cases h
  | some es =>
    refine ⟨es, rfl, ?_⟩
    rw [hfile] at h
    dsimp only at h
    unfold laid asLayer
    split at h
    · rename_i s' hs
      rw [hs, Except.ok.inj h]
    · cases h

end Settings

namespace DataDir

/-- The text of the settings file, and no text where there is no such file. -/
def settingsText (dir : DataDir) (d : Disk) : String :=
  match dir.settingsFile? d with
  | some (.file text) => text
  | _ => ""

theorem load_of_loadSettings {dir : DataDir} {d : Disk} {env : Environment} {s : Settings}
    (h : dir.loadSettings d env = .ok s) :
    ∃ file, Settings.load file env = .ok s ∧ file.getD "" = dir.settingsText d := by
  unfold loadSettings at h
  unfold settingsText
  rcases hfile : dir.settingsFile? d with _ | (text | _ | _) <;> rw [hfile] at h
  · exact ⟨none, h, rfl⟩
  · exact ⟨some text, h, rfl⟩
  · cases h
  · exact ⟨none, h, rfl⟩

/-- Settings that could be loaded have each field from the last variable on it, else from the file,
else by default, and texts from variables as they are spelled or as they were read. -/
theorem layered_loadSettings {dir : DataDir} {d : Disk} {env : Environment} {s : Settings}
    (h : dir.loadSettings d env = .ok s) :
    ∃ es, Settings.fileLayer? (dir.settingsText d) = some es ∧ Settings.Layered es env s := by
  obtain ⟨file, hload, hfile⟩ := load_of_loadSettings h
  obtain ⟨es, hes, hvalue⟩ := Settings.load_eq_ok hload
  exact ⟨es, hfile ▸ hes, Settings.layered_of_ofValue? hvalue⟩

/-- A directory with a settings file that gives some of the fields, two of them in a list. -/
def shelf : Disk where
  entries := [({ names := ["data"] }, .directory),
    ({ names := ["data", "bridge.yaml"] },
      .file "logging:\n  dir: audit\n  prefix: run\ndisplay: [800, 600]\n")]

/-- Variables with texts that look like numbers, a truth value and nothing special. -/
def badges : Environment :=
  [("PROOFREAD__LOGGING__PREFIX", "007"), ("Proofread__Data_Dir", "v1.10"), ("HOME", "/home/ann"),
    ("PROOFREAD__LOGGING__DEBUG_MODE", "TRUE"), ("PROOFREAD__DISPLAY__WIDTH", "+640")]

def badged : Settings where
  dataDir := "v1.10"
  logging := { dir := "audit", prefixName := "7", debugMode := true }
  display := { width := 640, height := 1080 }

/-- The prefix is what its variable is read as, and the width takes the place of the list, so that
the height has its default. -/
theorem layered_badges :
    DataDir.loadSettings ⟨{ pieces := ["data"] }⟩ shelf badges = .ok badged
      ∧ (∃ es, Settings.fileLayer? (DataDir.settingsText ⟨{ pieces := ["data"] }⟩ shelf) = some es
        ∧ Settings.Layered es badges badged)
      ∧ badged.get .loggingPrefix = .text "7" ∧ ¬ SettingValue.IsVerbatim "007"
      ∧ badged.get .dataDir = .text "v1.10" ∧ SettingValue.IsVerbatim "v1.10" := by
  have hload : DataDir.loadSettings ⟨{ pieces := ["data"] }⟩ shelf badges = .ok badged := by
    decide +kernel
  obtain ⟨es, hes, h⟩ := layered_loadSettings hload
  have hfront := h.verbatim .loggingPrefix (by decide) "007" (by decide +kernel)
  have hdata := h.verbatim .dataDir (by decide) "v1.10" (by decide +kernel)
  refine ⟨hload, ⟨es, hes, h⟩, rfl, fun hverbatim => ?_, rfl, hdata.1 rfl⟩
  have hspelled : "7" = "007" := SettingValue.text.inj (hfront.2 hverbatim)
  exact absurd hspelled (by decide)

end DataDir

end EngineShell
