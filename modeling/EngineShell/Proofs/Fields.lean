import EngineShell.Proofs.Layers

/-!
# The fields of the settings

Every field is read in the same way (`get_of_ofValue?`): what is found at its place is converted to
its type, and where nothing is found it has its default. Where no list stands in for a group, what
is found is what is under the path of the field's keys.
-/

namespace EngineShell

/-- A field of the settings that holds a value, not a group of fields. -/
inductive Setting where
  | dataDir
  | loggingDir
  | loggingPrefix
  | debugMode
  | consoleOutput
  | width
  | height
  | strictProtocol
  | metricsSummary
  deriving DecidableEq, Repr

namespace SettingValue

variable {v w : SettingValue}

/-- What is found at a place, which is given by a name and a position for each step. -/
def fieldAt? (v : SettingValue) : List (String × Nat) → Option SettingValue
  | [] => some v
  | (name, position) :: place => (v.field? name position).bind (·.fieldAt? place)

/-- The item for a field of a group, if a list stands in for the group. -/
def itemAt? (v : SettingValue) : List (String × Nat) → Option SettingValue
  | [(group, _), (_, position)] => (v.get? group).bind (·.items[position]?)
  | _ => none

/-- A field is read as the settings read it, and packed as a value again. -/
theorem readField_map {α : Type} {name : String} {position : Nat} {default x : α}
    {read : SettingValue → Option α} (pack : α → SettingValue)
    (h : v.readField name position default read = some x) :
    (v.fieldAt? [(name, position)]).elim (some (pack default)) (fun w => (read w).map pack)
      = some (pack x) := by
  unfold readField at h
  unfold fieldAt?
  rcases hf : v.field? name position with _ | w <;> rw [hf] at h
  · exact congrArg (Option.map pack) h
  · exact congrArg (Option.map pack) h

/-- A field of a group has the default of the group where there is no group. -/
theorem readField_group {α : Type} {group : String} {position : Nat} {default g : α}
    {readGroup : SettingValue → Option α} {place : List (String × Nat)}
    {read : SettingValue → Option SettingValue} (pick : α → SettingValue)
    (h : v.readField group position default readGroup = some g)
    (hfield : ∀ w, readGroup w = some g →
      (w.fieldAt? place).elim (some (pick default)) read = some (pick g)) :
    (v.fieldAt? ((group, position) :: place)).elim (some (pick default)) read
      = some (pick g) := by
  unfold readField at h
  unfold fieldAt?
  rcases hf : v.field? group position with _ | w <;> rw [hf] at h
  · obtain rfl := Option.some.inj h
    rfl
  · exact hfield w h

/-- In a map a field is found by its name, in a list by its position. -/
theorem field?_eq (v : SettingValue) (name : String) (position : Nat) :
    v.field? name position = (v.get? name).or v.items[position]? := by
  cases v <;> simp [field?, get?, entries, items]

theorem items_of_outline (hv : v.outline = map []) : v.items = [] := by
  obtain ⟨es, rfl⟩ := outline_eq_map hv
  rfl

theorem fieldAt?_cons (hv : v.outline = map []) (name : String) (position : Nat)
    (place : List (String × Nat)) :
    v.fieldAt? ((name, position) :: place) = (v.get? name).bind (·.fieldAt? place) := by
  rw [fieldAt?, field?_eq, items_of_outline hv, List.getElem?_nil, Option.or_none]

theorem fieldAt?_of_under? {name : String} (h : v.under? [name] = some w) (position : Nat) :
    ∃ u, v.fieldAt? [(name, position)] = some u ∧ u.outline = w := by
  obtain ⟨u, hu, hw⟩ := Option.bind_eq_some_iff.1 h
  refine ⟨u, ?_, Option.some.inj hw⟩
  rw [fieldAt?, field?_eq, hu]
  rfl

theorem fieldAt?_of_missing {name : String} (h : v.under? [name] = none) (position : Nat) :
    v.fieldAt? [(name, position)] = v.items[position]? := by
  have hnone : v.get? name = none := by
    rw [under?] at h
    cases hget : v.get? name with
    | none => rfl
    | some u => simp [hget, under?] at h
  rw [fieldAt?, field?_eq, hnone, Option.none_or]
  exact Option.bind_fun_some _

end SettingValue

namespace Setting

open SettingValue

/-- The name and the position of the field, after those of its group. -/
def place : Setting → List (String × Nat)
  | dataDir => [("data_dir", 0)]
  | loggingDir => [("logging", 1), ("dir", 0)]
  | loggingPrefix => [("logging", 1), ("prefix", 1)]
  | debugMode => [("logging", 1), ("debug_mode", 2)]
  | consoleOutput => [("logging", 1), ("console_output", 3)]
  | width => [("display", 2), ("width", 0)]
  | height => [("display", 2), ("height", 1)]
  | strictProtocol => [("strict_protocol", 3)]
  | metricsSummary => [("metrics_summary_on_exit", 4)]

/-- The keys that lead to the field. -/
def path (f : Setting) : List String :=
  f.place.map Prod.fst

/-- The path that leads to the field. -/
def steps (f : Setting) : List Step :=
  f.path.map .key

/-- The fields that hold a text. -/
def texts : List Setting :=
  [dataDir, loggingDir, loggingPrefix]

/-- What the field makes of a value that is given for it. A value of the field's own type is kept as
it is. -/
def read : Setting → SettingValue → Option SettingValue
  | dataDir, v | loggingDir, v | loggingPrefix, v => v.asText?.map text
  | width, v | height, v => v.asCoordinate?.map int
  | debugMode, v | consoleOutput, v | strictProtocol, v | metricsSummary, v => v.asBool?.map bool

end Setting

namespace Settings

def get (s : Settings) : Setting → SettingValue
  | .dataDir => .text s.dataDir
  | .loggingDir => .text s.logging.dir
  | .loggingPrefix => .text s.logging.prefixName
  | .debugMode => .bool s.logging.debugMode
  | .consoleOutput => .bool s.logging.consoleOutput
  | .width => .int s.display.width
  | .height => .int s.display.height
  | .strictProtocol => .bool s.strictProtocol
  | .metricsSummary => .bool s.metricsSummary

end Settings

namespace Setting

open SettingValue

variable {v w : SettingValue} {s : Settings}

def default (f : Setting) : SettingValue :=
  ({} : Settings).get f

theorem read_outline (f : Setting) (v : SettingValue) : f.read v.outline = f.read v := by
  cases v <;> cases f <;> rfl

theorem read_map (f : Setting) (es : List (String × SettingValue)) : f.read (map es) = none := by
  cases f <;> rfl

theorem read_list (f : Setting) (vs : List SettingValue) : f.read (list vs) = none := by
  cases f <;> rfl

theorem read_of_mem_texts {f : Setting} (h : f ∈ texts) (v : SettingValue) :
    f.read v = v.asText?.map text := by
  simp only [texts, List.mem_cons, List.not_mem_nil, or_false] at h
  rcases h with rfl | rfl | rfl <;> rfl

theorem get_of_loggingOf? {l : LoggingSettings} (h : Settings.loggingOf? w = some l) :
    (w.fieldAt? [("dir", 0)]).elim (some loggingDir.default) loggingDir.read = some (text l.dir)
      ∧ (w.fieldAt? [("prefix", 1)]).elim (some loggingPrefix.default) loggingPrefix.read
        = some (text l.prefixName)
      ∧ (w.fieldAt? [("debug_mode", 2)]).elim (some debugMode.default) debugMode.read
        = some (bool l.debugMode)
      ∧ (w.fieldAt? [("console_output", 3)]).elim (some consoleOutput.default) consoleOutput.read
        = some (bool l.consoleOutput) := by
  unfold Settings.loggingOf? at h
  split at h
  · simp only [Option.bind_eq_bind, Option.bind_eq_some_iff, Option.pure_def,
      Option.some.injEq] at h
    obtain ⟨dir, hdir, prefixName, hfront, debugMode, hdebug, consoleOutput, hconsole, rfl⟩ := h
    exact ⟨readField_map text hdir, readField_map text hfront, readField_map bool hdebug,
      readField_map bool hconsole⟩
  · cases h

theorem get_of_displayOf? {size : DisplaySize} (h : Settings.displayOf? w = some size) :
    (w.fieldAt? [("width", 0)]).elim (some width.default) width.read = some (int size.width)
      ∧ (w.fieldAt? [("height", 1)]).elim (some height.default) height.read
        = some (int size.height) := by
  unfold Settings.displayOf? at h
  split at h
  · simp only [Option.bind_eq_bind, Option.bind_eq_some_iff, Option.pure_def,
      Option.some.injEq] at h
    obtain ⟨width, hwidth, height, hheight, rfl⟩ := h
    exact ⟨readField_map int hwidth, readField_map int hheight⟩
  · cases h

/-- Each field of settings is what the field makes of the value at its place, or its default. -/
theorem get_of_ofValue? (h : Settings.ofValue? v = some s) (f : Setting) :
    (v.fieldAt? f.place).elim (some f.default) f.read = some (s.get f) := by
  unfold Settings.ofValue? at h
  simp only [Option.bind_eq_bind, Option.bind_eq_some_iff, Option.pure_def, Option.some.injEq] at h
  obtain ⟨dataDir, hdata, logging, hlogging, display, hdisplay, strict, hstrict, metrics, hmetrics,
    rfl⟩ := h
  cases f with
  | dataDir => exact readField_map text hdata
  | loggingDir =>
    exact readField_group (fun l : LoggingSettings => .text l.dir) hlogging fun w hw =>
      (get_of_loggingOf? hw).1
  | loggingPrefix =>
    exact readField_group (fun l : LoggingSettings => .text l.prefixName) hlogging fun w hw =>
      (get_of_loggingOf? hw).2.1
  | debugMode =>
    exact readField_group (fun l : LoggingSettings => .bool l.debugMode) hlogging fun w hw =>
      (get_of_loggingOf? hw).2.2.1
  | consoleOutput =>
    exact readField_group (fun l : LoggingSettings => .bool l.consoleOutput) hlogging fun w hw =>
      (get_of_loggingOf? hw).2.2.2
  | width =>
    exact readField_group (fun d : DisplaySize => .int d.width) hdisplay fun w hw =>
      (get_of_displayOf? hw).1
  | height =>
    exact readField_group (fun d : DisplaySize => .int d.height) hdisplay fun w hw =>
      (get_of_displayOf? hw).2
  | strictProtocol => exact readField_map bool hstrict
  | metricsSummary => exact readField_map bool hmetrics

theorem place_cases (f : Setting) : (∃ field, f.place = [field]) ∨
    ∃ group field, f.place = [group, field] := by
  cases f <;> simp [place]

theorem get_of_under? (h : Settings.ofValue? v = some s) (hv : v.outline = map []) {f : Setting}
    (hw : v.under? f.path = some w) : f.read w = some (s.get f) := by
  have hfound : ∃ u, v.fieldAt? f.place = some u ∧ u.outline = w := by
    rcases f.place_cases with ⟨⟨name, i⟩, hf⟩ | ⟨⟨group, i⟩, ⟨name, j⟩, hf⟩ <;>
      rw [path, hf] at hw <;> rw [hf]
    · exact fieldAt?_of_under? hw i
    · obtain ⟨g, hg, hw⟩ := Option.bind_eq_some_iff.1 hw
      rw [fieldAt?_cons hv, hg]
      exact fieldAt?_of_under? hw j
  obtain ⟨u, hu, rfl⟩ := hfound
  have hget := get_of_ofValue? h f
  rwa [hu, Option.elim_some, ← read_outline] at hget

theorem get_of_missing (h : Settings.ofValue? v = some s) (hv : v.outline = map []) {f : Setting}
    (hw : v.under? f.path = none) :
    (v.itemAt? f.place).elim (some f.default) f.read = some (s.get f) := by
  have hfound : v.fieldAt? f.place = v.itemAt? f.place := by
    rcases f.place_cases with ⟨⟨name, i⟩, hf⟩ | ⟨⟨group, i⟩, ⟨name, j⟩, hf⟩ <;>
      rw [path, hf] at hw <;> rw [hf]
    · rw [fieldAt?_of_missing hw, items_of_outline hv]
      rfl
    · rw [fieldAt?_cons hv, itemAt?]
      rcases hg : v.get? group with _ | g
      · rfl
      · refine fieldAt?_of_missing ?_ j
        rwa [List.map_cons, under?, hg] at hw
  rw [← hfound]
  exact get_of_ofValue? h f

end Setting

end EngineShell
