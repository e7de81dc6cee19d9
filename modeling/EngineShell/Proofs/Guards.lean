import EngineShell.Proofs.Windows

/-!
# Windows and their guards

A stack of windows is used directly and through guards, in any order (`WindowRun.take`). Beside the
stack are written down the windows that its additions answered, and for each guard what it has asked
the stack for. The stack shows what was added and not removed, refuses the one addition that it was
told to refuse, whether it is asked directly or for a guard. A guard that is put up has a window of
its own, and takes it down once (`tracked_takeAll`).
-/

namespace EngineShell

/-- What can be done to a stack of windows. Guards are counted from the first that was put up. -/
inductive WindowStep where
  | add (params : WindowParams)
  | remove (id : Nat)
  | refuseNext
  | attach (params : WindowParams) (layout : Layout)
  | release (guard : Nat)
  | drop (guard : Nat)

namespace WindowStep

/-- Whether a step tries to add a window. -/
def adds : WindowStep → Bool
  | add _ | attach .. => true
  | _ => false

/-- Whether a step removes or drops a guard. -/
def releases (n : Nat) : WindowStep → Bool
  | release m | drop m => m == n
  | _ => false

/-- The stack was told to refuse a window, and no step has tried to add one since. -/
def Refusing (steps : List WindowStep) : Prop :=
  ∃ before after, steps = before ++ refuseNext :: after ∧ ∀ step ∈ after, step.adds = false

theorem not_refusing_nil : ¬ Refusing [] := by
  rintro ⟨before, after, heq, -⟩
  simp at heq

theorem refusing_concat {steps : List WindowStep} {step : WindowStep} :
    Refusing (steps ++ [step]) ↔ step = refuseNext ∨ step.adds = false ∧ Refusing steps := by
  constructor
  · rintro ⟨before, after, heq, hafter⟩
    obtain ⟨-, hlast, -⟩ | ⟨after', rfl, rfl⟩ := concat_eq_append_cons heq
    · exact .inl hlast.symm
    · exact .inr ⟨hafter step (by simp), before, after', rfl, fun s hs => hafter s (by simp [hs])⟩
  · rintro (rfl | ⟨hstep, before, after, rfl, hafter⟩)
    · exact ⟨steps, [], rfl, by simp⟩
    · refine ⟨before, after ++ [step], by simp, fun s hs => ?_⟩
      rcases List.mem_append.1 hs with hs | hs
      · exact hafter s hs
      · exact List.mem_singleton.1 hs ▸ hstep

end WindowStep

namespace Windows

variable {w : Windows}

theorem attached_add (w : Windows) (params : WindowParams) : (w.add params).2.attached
    = w.attached ++ (w.add params).1.toOption.toList.map (·, params) := by
  unfold add
  split_ifs <;> simp [Except.toOption]

theorem removedIds_add (w : Windows) (params : WindowParams) :
    (w.add params).2.removedIds = w.removedIds := by
  unfold add
  split_ifs <;> simp [removedIds, WindowEvent.removed?]

theorem lastId_add_le (w : Windows) (params : WindowParams) :
    (w.add params).2.lastId ≤ w.lastId + 1 := by
  unfold add
  split_ifs <;> simp

theorem refuseNext_add (w : Windows) (params : WindowParams) :
    (w.add params).2.refuseNext = false := by
  unfold add
  split_ifs with h
  · rfl
  · simpa using h

theorem eq_lastId_of_add {params : WindowParams} {id : Nat} (h : (w.add params).1 = .ok id) :
    id = w.lastId + 1 := by
  unfold add at h
  split_ifs at h
  exact (Except.ok.inj h).symm

theorem add_eq_error_iff (w : Windows) (params : WindowParams) :
    (∃ e, (w.add params).1 = .error e) ↔ w.refuseNext = true := by
  unfold add
  split_ifs with h <;> simp [h]

/-- A refused window leaves nothing behind. -/
theorem add_of_error {params : WindowParams} {e : WindowError}
    (h : (w.add params).1 = .error e) : (w.add params).2 = { w with refuseNext := false } := by
  rw [add, if_pos ((w.add_eq_error_iff params).1 ⟨e, h⟩)]

theorem add_of_ok {params : WindowParams} {id : Nat} (h : (w.add params).1 = .ok id) :
    (w.add params).2 = { w with
      lastId := id
      attached := w.attached ++ [(id, params)]
      events := w.events ++ [.added id] } := by
  obtain rfl := eq_lastId_of_add h
  have hrefuse : ¬ w.refuseNext = true := by
    intro hrefuse
    obtain ⟨e, he⟩ := (w.add_eq_error_iff params).2 hrefuse
    cases h.symm.trans he
  rw [add, if_neg hrefuse]

theorem attached_remove (w : Windows) (id : Nat) :
    (w.remove id).2.attached = w.attached.filter fun p => p.1 != id := by
  unfold remove
  split_ifs with h
  · rfl
  · refine (List.filter_eq_self.2 fun p hp => ?_).symm
    have hne : p.1 ≠ id := fun heq => h (isAttached_iff.2 (heq ▸ List.mem_map_of_mem hp))
    simp [hne]

theorem removedIds_remove (w : Windows) (id : Nat) :
    (w.remove id).2.removedIds = w.removedIds ++ if id ∈ w.ids then [id] else [] := by
  unfold remove
  by_cases h : id ∈ w.ids
  · simp [isAttached_iff.2 h, h, removedIds, WindowEvent.removed?]
  · simp [mt isAttached_iff.1 h, h]

theorem refuseNext_remove (w : Windows) (id : Nat) :
    (w.remove id).2.refuseNext = w.refuseNext := by
  unfold remove
  split_ifs <;> rfl

theorem lastId_remove (w : Windows) (id : Nat) : (w.remove id).2.lastId = w.lastId := by
  unfold remove
  split_ifs <;> rfl

theorem remove_of_notMem {id : Nat} (h : id ∉ w.ids) :
    w.remove id = (.error (.notAttached id), w) := by
  rw [remove, if_neg (mt isAttached_iff.1 h)]

theorem Logged.nodup_ids (hl : w.Logged) : w.ids.Nodup := by
  rw [hl.attached, hl.added]
  exact List.Nodup.filter _ List.nodup_range'

/-- Where each number stands once, to take away all windows with a number is to take away one. -/
theorem filter_eq_eraseP {attached : List (Nat × WindowParams)}
    (h : (attached.map (·.1)).Nodup) (id : Nat) :
    (attached.filter fun p => p.1 != id) = attached.eraseP fun p => p.1 == id := by
  induction attached with
  | nil => rfl
  | cons p attached ih =>
    rw [List.map_cons, List.nodup_cons] at h
    by_cases hp : p.1 = id
    · have hrest : ∀ q ∈ attached, (q.1 != id) = true := by
        intro q hq
        have hne : q.1 ≠ id := fun hqid => h.1 (hp.trans hqid.symm ▸ List.mem_map_of_mem hq)
        simpa using hne
      simpa [hp] using hrest
    · simp [hp, ih h.2]

theorem Logged.remove_of_mem (hl : w.Logged) {id : Nat} (h : id ∈ w.ids) :
    w.remove id = (.ok (), { w with
      attached := w.attached.eraseP fun p => p.1 == id
      events := w.events ++ [.removed id] }) := by
  rw [Windows.remove, if_pos (isAttached_iff.2 h), filter_eq_eraseP hl.nodup_ids]

end Windows

/-- A guard asks for the removal of the window that it has, if it has one, and has none then. -/
theorem Guard.remove_eq (g : Guard) (w : Windows) : g.remove w = (g.window.isSome,
    { g with window := none }, g.window.toList.foldl (fun w id => (w.remove id).2) w) := by
  rcases g with ⟨_ | id, layout⟩ <;> rfl

/-- A guard is put up by one addition. -/
theorem Guard.attach_eq (w : Windows) (params : WindowParams) (layout : Layout) :
    Guard.attach w params layout
      = ((w.add params).1.map fun id => { window := some id, layout }, (w.add params).2) := rfl

theorem Guard.attach_eq_error_iff (w : Windows) (params : WindowParams) (layout : Layout) :
    (∃ e, (Guard.attach w params layout).1 = .error e) ↔ w.refuseNext = true := by
  rw [← w.add_eq_error_iff params, Guard.attach_eq]
  cases (w.add params).1 <;> simp [Except.map]

theorem Guard.attach_of_error {w w' : Windows} {params : WindowParams} {layout : Layout}
    {e : WindowError} (h : Guard.attach w params layout = (.error e, w')) :
    w.add params = (.error e, w') := by
  rcases hadd : w.add params with ⟨answer, w''⟩
  rw [Guard.attach_eq, hadd] at h
  cases answer <;> cases h
  rfl

/-- A guard that is put up has the window that was added, and its layout. -/
theorem Guard.attach_of_ok {w w' : Windows} {params : WindowParams} {layout : Layout} {g : Guard}
    (h : Guard.attach w params layout = (.ok g, w')) :
    ∃ id, g = { window := some id, layout } ∧ w.add params = (.ok id, w') := by
  rcases hadd : w.add params with ⟨answer, w''⟩
  rw [Guard.attach_eq, hadd] at h
  cases answer with
  | error e => cases h
  | ok id =>
    cases h
    exact ⟨id, rfl, rfl⟩

/-- A guard with its past: the window it was put up with, what its removals answered, and the
removals that it asked the stack for. The removal by which it is dropped counts. -/
structure GuardRecord where
  own : Option Nat
  guard : Guard
  answers : List Bool := []
  asked : List Nat := []
  dropped : Bool := false

/-- A stack of windows, the windows that its additions have answered, and the guards. -/
structure WindowRun where
  windows : Windows := {}
  added : List (Nat × WindowParams) := []
  guards : List GuardRecord := []

namespace GuardRecord

def release (g : GuardRecord) (w : Windows) (dropped : Bool) : GuardRecord × Windows :=
  let (answer, guard, w) := g.guard.remove w
  ({ g with
    guard
    answers := g.answers ++ [answer]
    asked := g.asked ++ g.guard.window.toList
    dropped }, w)

/-- The same guard later on. Its window and its layout are the same, and no answer is forgotten. -/
structure Follows (g g' : GuardRecord) : Prop where
  own : g'.own = g.own
  layout : g'.guard.layout = g.guard.layout
  answers : g.answers <+: g'.answers

theorem Follows.refl (g : GuardRecord) : g.Follows g :=
  ⟨rfl, rfl, List.prefix_rfl⟩

theorem Follows.trans {g g' g'' : GuardRecord} (h : g.Follows g') (h' : g'.Follows g'') :
    g.Follows g'' :=
  ⟨h'.own.trans h.own, h'.layout.trans h.layout, h.answers.trans h'.answers⟩

theorem follows_release (g : GuardRecord) (w : Windows) (dropped : Bool) :
    g.Follows (g.release w dropped).1 := by
  rw [release, Guard.remove_eq]
  exact ⟨rfl, rfl, List.prefix_append _ _⟩

/-- Nobody has used the guard, and it has its window. -/
structure Unused (g : GuardRecord) : Prop where
  answers : g.answers = []
  asked : g.asked = []
  kept : g.dropped = false
  window : g.guard.window = g.own

/-- The guard has taken down its window. It did so at the first removal, asked for nothing else,
and the window is not up. -/
structure Used (w : Windows) (g : GuardRecord) : Prop where
  answers : ∃ n, g.answers = true :: List.replicate n false
  asked : g.asked = g.own.toList
  window : g.guard.window = none
  gone : ∀ id, g.own = some id → id ∉ w.ids

/-- A guard owns a window that was added, and removes it once or not at all. -/
structure Keeps (added : List (Nat × WindowParams)) (w : Windows) (g : GuardRecord) : Prop where
  own : ∃ id params, g.own = some id ∧ (id, params) ∈ added
  course : g.Unused ∨ g.Used w

variable {added added' : List (Nat × WindowParams)} {w w' : Windows} {g : GuardRecord}

/-- What was added and is down stays down, so a guard stays as good as it was. -/
theorem Keeps.mono (h : g.Keeps added w) (hadded : added ⊆ added')
    (hids : ∀ id ∈ added.map (·.1), id ∈ w'.ids → id ∈ w.ids) : g.Keeps added' w' := by
  obtain ⟨⟨id, params, hown, hmem⟩, hcourse⟩ := h
  refine ⟨⟨id, params, hown, hadded hmem⟩, hcourse.imp_right fun hu => ?_⟩
  refine ⟨hu.answers, hu.asked, hu.window, fun id' hid' hup => hu.gone id' hid' (hids id' ?_ hup)⟩
  rw [hown, Option.some_inj] at hid'
  exact hid' ▸ List.mem_map_of_mem hmem

/-- The first removal of a guard asks the stack for its own window. A later one asks for nothing. -/
theorem Keeps.remove (h : g.Keeps added w) :
    (g.Unused ∧ ∃ id, g.own = some id ∧
      g.guard.remove w = (true, { g.guard with window := none }, (w.remove id).2)) ∨
    (g.Used w ∧ g.guard.remove w = (false, g.guard, w)) := by
  obtain ⟨⟨id, params, hown, -⟩, hu | hu⟩ := h
  · refine .inl ⟨hu, id, hown, ?_⟩
    rw [Guard.remove_eq, hu.window, hown]
    rfl
  · refine .inr ⟨hu, ?_⟩
    obtain ⟨own, ⟨window, layout⟩, answers, asked, dropped⟩ := g
    obtain rfl : window = none := hu.window
    rfl

theorem Keeps.used_release (h : g.Keeps added w) (dropped : Bool) :
    (g.release w dropped).1.Used (g.release w dropped).2 := by
  obtain ⟨hu, id, hown, hremove⟩ | ⟨hu, hremove⟩ := h.remove <;> rw [release, hremove]
  · refine ⟨⟨0, by simp [hu.answers]⟩, by simp [hu.asked, hu.window], rfl, fun id' hid' => ?_⟩
    obtain rfl : id = id' := Option.some.inj (hown.symm.trans hid')
    simp [Windows.ids_remove]
  · obtain ⟨n, hanswers⟩ := hu.answers
    exact ⟨⟨n + 1, by simp [hanswers, List.replicate_succ']⟩, by simp [hu.asked, hu.window],
      hu.window, hu.gone⟩

/-- A guard that has answered is used. -/
theorem Keeps.used (h : g.Keeps added w) (ha : g.answers ≠ []) : g.Used w :=
  h.course.resolve_left fun hu => ha hu.answers

theorem Used.answers_ne_nil (h : g.Used w) : g.answers ≠ [] := by
  obtain ⟨n, hn⟩ := h.answers
  simp [hn]

end GuardRecord

namespace WindowRun

/-- Release a guard. One that has been dropped is not there any more. -/
def releaseGuard (r : WindowRun) (n : Nat) (dropped : Bool) : WindowRun :=
  match r.guards[n]? with
  | some g =>
    if g.dropped then r
    else
      let (g, windows) := g.release r.windows dropped
      { r with windows, guards := r.guards.set n g }
  | none => r

def take (r : WindowRun) : WindowStep → WindowRun
  | .add params =>
    let (answer, windows) := r.windows.add params
    { r with windows, added := r.added ++ answer.toOption.toList.map (·, params) }
  | .remove id => { r with windows := (r.windows.remove id).2 }
  | .refuseNext => { r with windows := r.windows.failNext }
  | .attach params layout =>
    match Guard.attach r.windows params layout with
    | (.ok guard, windows) =>
      { windows
        added := r.added ++ guard.window.toList.map (·, params)
        guards := r.guards ++ [{ own := guard.window, guard }] }
    | (.error _, windows) => { r with windows }
  | .release n => r.releaseGuard n false
  | .drop n => r.releaseGuard n true

def takeAll (r : WindowRun) (steps : List WindowStep) : WindowRun :=
  steps.foldl take r

theorem takeAll_concat (r : WindowRun) (steps : List WindowStep) (step : WindowStep) :
    r.takeAll (steps ++ [step]) = (r.takeAll steps).take step := by
  rw [takeAll, takeAll, List.foldl_append, List.foldl_cons, List.foldl_nil]

/-- What is written down beside a stack agrees with it. -/
structure Booked (steps : List WindowStep) (r : WindowRun) : Prop where
  log : r.windows.Logged
  added : r.windows.addedIds = r.added.map (·.1)
  attached : r.windows.attached = r.added.filter (·.1 ∉ r.windows.removedIds)
  bounded : r.windows.lastId ≤ steps.countP WindowStep.adds
  refuses : r.windows.refuseNext = true ↔ WindowStep.Refusing steps
  guards : ∀ g ∈ r.guards, g.Keeps r.added r.windows
  owned : (r.guards.map (·.own)).Nodup

namespace Booked

variable {steps : List WindowStep} {r : WindowRun}

theorem empty : Booked [] {} where
  log := .empty
  added := rfl
  attached := rfl
  bounded := Nat.le_refl 0
  refuses := iff_of_false Bool.false_ne_true WindowStep.not_refusing_nil
  guards := by simp
  owned := List.nodup_nil

/-- Steps that try to add nothing and refuse nothing do not change what is refused. -/
theorem refuses_concat (h : r.Booked steps) {step : WindowStep} (hadds : step.adds = false)
    (hstep : step ≠ .refuseNext) :
    r.windows.refuseNext = true ↔ WindowStep.Refusing (steps ++ [step]) := by
  simp [WindowStep.refusing_concat, hadds, hstep, h.refuses]

theorem lastId_lt_of_add (h : r.Booked steps) {params : WindowParams} {id : Nat}
    (hadd : (r.windows.add params).1 = .ok id) : ∀ p ∈ r.added, p.1 < id := by
  intro p hp
  have hmem : p.1 ∈ r.windows.addedIds := h.added ▸ List.mem_map_of_mem hp
  rw [h.log.added, List.mem_range'_1] at hmem
  have := Windows.eq_lastId_of_add hadd
  omega

/-- Nothing is asked of the stack. -/
theorem skip (h : r.Booked steps) {step : WindowStep} (hadds : step.adds = false)
    (hstep : step ≠ .refuseNext) : r.Booked (steps ++ [step]) where
  log := h.log
  added := h.added
  attached := h.attached
  bounded := by simpa [List.countP_append, hadds] using h.bounded
  refuses := h.refuses_concat hadds hstep
  guards := h.guards
  owned := h.owned

theorem refuse (h : r.Booked steps) :
    Booked (steps ++ [.refuseNext]) { r with windows := r.windows.failNext } where
  log := h.log.failNext
  added := h.added
  attached := h.attached
  bounded := by simpa [List.countP_append, WindowStep.adds, Windows.failNext] using h.bounded
  refuses := by simp [WindowStep.refusing_concat, Windows.failNext]
  guards := fun g hg => (h.guards g hg).mono (List.Subset.refl _) fun _ _ hup => hup
  owned := h.owned

theorem remove (h : r.Booked steps) (id : Nat) {step : WindowStep} (hadds : step.adds = false)
    (hstep : step ≠ .refuseNext) :
    Booked (steps ++ [step]) { r with windows := (r.windows.remove id).2 } where
  log := h.log.remove id
  added := (r.windows.addedIds_remove id).trans h.added
  attached := by
    rw [Windows.attached_remove, Windows.removedIds_remove, h.attached, List.filter_filter]
    refine List.filter_congr fun p hp => ?_
    by_cases hid : p.1 = id
    · -- either it was up and is removed now, or it had been removed before
      subst hid
      by_cases hup : p.1 ∈ r.windows.ids
      · simp [hup]
      · have hgone : p.1 ∈ r.windows.removedIds := by
          by_contra hne
          refine hup ?_
          rw [h.log.attached, h.added]
          exact List.mem_filter.2 ⟨List.mem_map_of_mem hp, by simpa using hne⟩
        simp [hgone]
    · split_ifs <;> simp [hid]
  bounded := by
    rw [Windows.lastId_remove]
    simpa [List.countP_append, hadds] using h.bounded
  refuses := by
    rw [Windows.refuseNext_remove]
    exact h.refuses_concat hadds hstep
  guards g hg := by
    refine (h.guards g hg).mono (List.Subset.refl _) fun _ _ hup => ?_
    rw [Windows.ids_remove] at hup
    exact List.mem_of_mem_filter hup
  owned := h.owned

theorem add (h : r.Booked steps) (params : WindowParams) {step : WindowStep}
    (hadds : step.adds = true) : Booked (steps ++ [step]) { r with
      windows := (r.windows.add params).2
      added := r.added ++ (r.windows.add params).1.toOption.toList.map (·, params) } where
  log := h.log.add params
  added := by
    rw [Windows.addedIds_add, h.added, List.map_append, List.map_map]
    simp [Function.comp_def]
  attached := by
    rw [Windows.attached_add, Windows.removedIds_add, List.filter_append, h.attached]
    congr 1
    refine (List.filter_eq_self.2 fun p hp => ?_).symm
    obtain ⟨id, hid, rfl⟩ := List.mem_map.1 hp
    have hnew : (r.windows.add params).1 = .ok id := by
      cases hadd : (r.windows.add params).1 <;> simp_all [Except.toOption]
    have hlog : id ∉ r.windows.removedIds := by
      intro hgone
      have hmem := h.log.mem_added hgone
      rw [h.added] at hmem
      obtain ⟨p, hp, heq⟩ := List.mem_map.1 hmem
      exact absurd heq (h.lastId_lt_of_add hnew p hp).ne
    simpa using hlog
  bounded := by
    have := r.windows.lastId_add_le params
    have := h.bounded
    simp only [List.countP_append, List.countP_singleton, hadds, if_true]
    omega
  refuses := by
    rw [Windows.refuseNext_add]
    have hstep : step ≠ .refuseNext := by
      rintro rfl
      simp [WindowStep.adds] at hadds
    simp [WindowStep.refusing_concat, hadds, hstep]
  guards g hg := by
    refine (h.guards g hg).mono (List.subset_append_left _ _) fun id hid hup => ?_
    have hids : (r.windows.add params).2.ids
        = r.windows.ids ++ (r.windows.add params).1.toOption.toList := by
      simp [Windows.ids, Windows.attached_add, Function.comp_def]
    rw [hids, List.mem_append] at hup
    refine hup.resolve_right fun hnew => ?_
    obtain ⟨p, hp, rfl⟩ := List.mem_map.1 hid
    cases hadd : (r.windows.add params).1 with
    | error e => simp [hadd, Except.toOption] at hnew
    | ok id =>
      have : p.1 = id := by simpa [hadd, Except.toOption] using hnew
      exact absurd this (h.lastId_lt_of_add hadd p hp).ne
  owned := h.owned

/-- A guard is put up over a window that no other guard has. -/
theorem adopt (h : r.Booked steps) {g : GuardRecord} (hg : g.Keeps r.added r.windows)
    (hnew : ∀ g' ∈ r.guards, g'.own ≠ g.own) :
    Booked steps { r with guards := r.guards ++ [g] } where
  log := h.log
  added := h.added
  attached := h.attached
  bounded := h.bounded
  refuses := h.refuses
  guards g' hg' := by
    rcases List.mem_append.1 hg' with hg' | hg'
    · exact h.guards g' hg'
    · exact List.mem_singleton.1 hg' ▸ hg
  owned := by
    rw [List.map_append, List.map_singleton, ← List.concat_eq_append, List.nodup_concat]
    refine ⟨fun hmem => ?_, h.owned⟩
    obtain ⟨g', hg', heq⟩ := List.mem_map.1 hmem
    exact hnew g' hg' heq

theorem attach (h : r.Booked steps) (params : WindowParams) (layout : Layout) :
    Booked (steps ++ [.attach params layout]) (r.take (.attach params layout)) := by
  have hadd : Booked (steps ++ [.attach params layout]) _ := h.add params rfl
  rw [take, Guard.attach_eq]
  cases hanswer : (r.windows.add params).1 with
  | error e => simpa [hanswer, Except.toOption, Except.map] using hadd
  | ok id =>
    simp only [hanswer, Except.toOption] at hadd
    refine hadd.adopt ⟨⟨id, params, rfl, by simp⟩, .inl ⟨rfl, rfl, rfl, rfl⟩⟩ fun g hg heq => ?_
    obtain ⟨id', params', hown, hmem⟩ := (h.guards g hg).own
    obtain rfl : id' = id := Option.some.inj (hown.symm.trans heq)
    exact lt_irrefl _ (h.lastId_lt_of_add hanswer _ hmem)

/-- A guard is replaced by one that keeps the same window. -/
theorem replace (h : r.Booked steps) {n : Nat} {g g' : GuardRecord} (hn : r.guards[n]? = some g)
    (hg : g'.Keeps r.added r.windows) (hown : g'.own = g.own) :
    Booked steps { r with guards := r.guards.set n g' } where
  log := h.log
  added := h.added
  attached := h.attached
  bounded := h.bounded
  refuses := h.refuses
  guards g' hg' := by
    rcases List.mem_or_eq_of_mem_set hg' with hg' | rfl
    · exact h.guards g' hg'
    · exact hg
  owned := by
    rw [List.map_set, hown]
    obtain ⟨hlt, rfl⟩ := List.getElem?_eq_some_iff.1 hn
    rw [← List.getElem_map GuardRecord.own (h := by simpa using hlt), List.set_getElem_self]
    exact h.owned

theorem release (h : r.Booked steps) (n : Nat) (dropped : Bool) {step : WindowStep}
    (hadds : step.adds = false) (hstep : step ≠ .refuseNext) :
    Booked (steps ++ [step]) (r.releaseGuard n dropped) := by
  unfold releaseGuard
  split
  case h_2 => exact h.skip hadds hstep
  case h_1 g hn =>
    split_ifs
    · exact h.skip hadds hstep
    have hg := h.guards g (List.mem_of_getElem? hn)
    have hused := hg.used_release dropped
    have hstack :
        Booked (steps ++ [step]) { r with windows := (g.release r.windows dropped).2 } := by
      obtain ⟨-, id, -, hremove⟩ | ⟨-, hremove⟩ := hg.remove <;> rw [GuardRecord.release, hremove]
      · exact h.remove id hadds hstep
      · exact h.skip hadds hstep
    exact hstack.replace hn ⟨hg.own, .inr hused⟩ rfl

theorem take (h : r.Booked steps) (step : WindowStep) : (r.take step).Booked (steps ++ [step]) := by
  cases step with
  | add params => exact h.add params rfl
  | remove id => exact h.remove id rfl (by simp)
  | refuseNext => exact h.refuse
  | attach params layout => exact h.attach params layout
  | release n => exact h.release n false rfl (by simp)
  | drop n => exact h.release n true rfl (by simp)

theorem takeAll (steps : List WindowStep) : (WindowRun.takeAll {} steps).Booked steps := by
  induction steps using List.reverseRecOn with
  | nil => exact empty
  | append_singleton steps step ih =>
    rw [takeAll_concat]
    exact ih.take step

end Booked

/-- A guard keeps its place. -/
theorem getElem?_guards_releaseGuard {r : WindowRun} {n : Nat} {g : GuardRecord}
    (hn : r.guards[n]? = some g) (m : Nat) (dropped : Bool) :
    ∃ g', (r.releaseGuard m dropped).guards[n]? = some g' ∧ g.Follows g' := by
  unfold releaseGuard
  split
  case h_2 => exact ⟨g, hn, .refl g⟩
  case h_1 g' hm =>
    split_ifs
    · exact ⟨g, hn, .refl g⟩
    by_cases hmn : m = n
    · subst hmn
      obtain rfl : g' = g := Option.some.inj (hm.symm.trans hn)
      have hlt := (List.getElem?_eq_some_iff.1 hm).1
      exact ⟨_, List.getElem?_set_self hlt, g'.follows_release _ _⟩
    · exact ⟨g, (List.getElem?_set_ne hmn).trans hn, .refl g⟩

theorem getElem?_guards_take {r : WindowRun} {n : Nat} {g : GuardRecord}
    (hn : r.guards[n]? = some g) (step : WindowStep) :
    ∃ g', (r.take step).guards[n]? = some g' ∧ g.Follows g' := by
  cases step with
  | release m => exact getElem?_guards_releaseGuard hn m false
  | drop m => exact getElem?_guards_releaseGuard hn m true
  | add | remove | refuseNext => exact ⟨g, hn, .refl g⟩
  | attach params layout =>
    rw [take, Guard.attach_eq]
    cases (r.windows.add params).1 with
    | error e => exact ⟨g, hn, .refl g⟩
    | ok id =>
      refine ⟨g, ?_, .refl g⟩
      have hlt := (List.getElem?_eq_some_iff.1 hn).1
      exact (List.getElem?_append_left hlt).trans hn

theorem getElem?_guards_takeAll {r : WindowRun} {n : Nat} {g : GuardRecord}
    (hn : r.guards[n]? = some g) (steps : List WindowStep) :
    ∃ g', (r.takeAll steps).guards[n]? = some g' ∧ g.Follows g' := by
  induction steps using List.reverseRecOn with
  | nil => exact ⟨g, hn, .refl g⟩
  | append_singleton steps step ih =>
    obtain ⟨g', hn', hfollows⟩ := ih
    rw [takeAll_concat]
    obtain ⟨g'', hn'', hfollows'⟩ := getElem?_guards_take hn' step
    exact ⟨g'', hn'', hfollows.trans hfollows'⟩

theorem added_releaseGuard (r : WindowRun) (n : Nat) (dropped : Bool) :
    (r.releaseGuard n dropped).added = r.added := by
  unfold releaseGuard
  split
  case h_2 => rfl
  case h_1 => split_ifs <;> rfl

theorem added_prefix_take (r : WindowRun) (step : WindowStep) :
    r.added <+: (r.take step).added := by
  cases step with
  | add params => exact List.prefix_append _ _
  | remove | refuseNext => exact List.prefix_rfl
  | attach params layout =>
    rw [take, Guard.attach_eq]
    cases (r.windows.add params).1 with
    | error e => exact List.prefix_rfl
    | ok id => exact List.prefix_append _ _
  | release n | drop n =>
    rw [take, added_releaseGuard]

theorem added_prefix_takeAll (r : WindowRun) (steps : List WindowStep) :
    r.added <+: (r.takeAll steps).added := by
  induction steps using List.reverseRecOn with
  | nil => exact List.prefix_rfl
  | append_singleton steps step ih =>
    rw [takeAll_concat]
    exact ih.trans (added_prefix_take _ step)

/-- A guard that is removed or dropped has answered: now, or when it was dropped before. -/
theorem Booked.answered {steps : List WindowStep} {r : WindowRun} (h : r.Booked steps) {n : Nat}
    {g : GuardRecord} (hn : r.guards[n]? = some g) {step : WindowStep}
    (hstep : step.releases n = true) :
    ∃ g', (r.take step).guards[n]? = some g' ∧ g.Follows g' ∧ g'.answers ≠ [] := by
  have hg := h.guards g (List.mem_of_getElem? hn)
  have hrelease : ∀ dropped, ∃ g', (r.releaseGuard n dropped).guards[n]? = some g' ∧
      g.Follows g' ∧ g'.answers ≠ [] := by
    intro dropped
    rw [releaseGuard, hn]
    dsimp only
    split_ifs with hdropped
    · have hused : g.Used r.windows := hg.course.resolve_left fun hu => by
        simp [hu.kept] at hdropped
      exact ⟨g, hn, .refl g, hused.answers_ne_nil⟩
    · have hlt := (List.getElem?_eq_some_iff.1 hn).1
      exact ⟨_, List.getElem?_set_self hlt, g.follows_release _ _,
        (hg.used_release dropped).answers_ne_nil⟩
  cases step with
  | release m => exact (beq_iff_eq.1 hstep : m = n) ▸ hrelease false
  | drop m => exact (beq_iff_eq.1 hstep : m = n) ▸ hrelease true
  | add | remove | refuseNext | attach => exact absurd hstep Bool.false_ne_true

theorem takeAll_split (r : WindowRun) (before after : List WindowStep) (step : WindowStep) :
    r.takeAll (before ++ step :: after) = ((r.takeAll before).take step).takeAll after :=
  List.foldl_append.trans (List.foldl_cons ..)

/-- A guard that was removed or dropped stays used. -/
theorem used_of_releases {before after : List WindowStep} {step : WindowStep} {n : Nat}
    {g : GuardRecord} (hstep : step.releases n = true)
    (hn : (WindowRun.takeAll {} before).guards[n]? = some g) :
    ∃ g', (WindowRun.takeAll {} (before ++ step :: after)).guards[n]? = some g' ∧ g'.own = g.own ∧
      g'.Used (WindowRun.takeAll {} (before ++ step :: after)).windows := by
  obtain ⟨g', hn', hfollows, hanswers⟩ := (Booked.takeAll before).answered hn hstep
  obtain ⟨g'', hn'', hfollows'⟩ := getElem?_guards_takeAll hn' after
  rw [← takeAll_split] at hn''
  have hkeeps := (Booked.takeAll _).guards g'' (List.mem_of_getElem? hn'')
  refine ⟨g'', hn'', (hfollows.trans hfollows').own, hkeeps.used fun hnil => hanswers ?_⟩
  exact List.prefix_nil.1 (hnil ▸ hfollows'.answers)

/-- An attachment that is not to be refused puts up a guard with a new window. -/
theorem Booked.take_attach {steps : List WindowStep} {r : WindowRun} (h : r.Booked steps)
    (hrefuse : ¬ WindowStep.Refusing steps) (params : WindowParams) (layout : Layout) :
    ∃ id, (∀ p ∈ r.added, p.1 < id)
      ∧ (r.take (.attach params layout)).added = r.added ++ [(id, params)]
      ∧ (r.take (.attach params layout)).guards
        = r.guards ++ [{ own := some id, guard := { window := some id, layout } }] := by
  rw [WindowRun.take, Guard.attach_eq]
  cases hanswer : (r.windows.add params).1 with
  | error e =>
    have hrefuses := (r.windows.add_eq_error_iff params).1 ⟨e, hanswer⟩
    exact (hrefuse (h.refuses.1 hrefuses)).elim
  | ok id => exact ⟨id, h.lastId_lt_of_add hanswer, rfl, rfl⟩

/-- A guard that was put up is found at its place, with a window that was new. -/
theorem placed_takeAll {before : List WindowStep} (hrefuse : ¬ WindowStep.Refusing before)
    (params : WindowParams) (layout : Layout) (after : List WindowStep) :
    ∃ g id, (WindowRun.takeAll {} (before ++ .attach params layout :: after)).guards[
        (WindowRun.takeAll {} before).guards.length]? = some g
      ∧ g.own = some id ∧ g.guard.layout = layout
      ∧ (id, params) ∈ (WindowRun.takeAll {} (before ++ .attach params layout :: after)).added
      ∧ ∀ p ∈ (WindowRun.takeAll {} before).added, p.1 < id := by
  obtain ⟨id, hfresh, hadded, hguards⟩ := (Booked.takeAll before).take_attach hrefuse params layout
  have hput := congrArg (·[(WindowRun.takeAll {} before).guards.length]?) hguards
  rw [List.getElem?_concat_length] at hput
  obtain ⟨g, hn, hfollows⟩ := getElem?_guards_takeAll hput after
  have hkept := (added_prefix_takeAll _ after).subset (hadded ▸ List.mem_concat_self)
  rw [← takeAll_split] at hn hkept
  exact ⟨g, id, hn, hfollows.own, hfollows.layout, hkept, hfresh⟩

/-- What holds of a stack of windows and its guards after any steps. -/
structure Tracked (steps : List WindowStep) (r : WindowRun) : Prop where
  /-- No number is given twice, and none is above the number of additions that were tried. -/
  rising : (r.added.map (·.1)).Pairwise (· < ·)
  bounded : ∀ p ∈ r.added, p.1 ≤ steps.countP WindowStep.adds
  logged : r.windows.addedIds = r.added.map (·.1)
  once : r.windows.removedIds.Nodup
  ordered : ∀ before id after,
    r.windows.events = before ++ .removed id :: after → .added id ∈ before
  attached : r.windows.attached = r.added.filter (·.1 ∉ r.windows.removedIds)
  /-- The next addition fails if and only if it was to be refused. It leaves nothing behind. -/
  refuses : ∀ params, (∃ e, (r.windows.add params).1 = .error e) ↔ WindowStep.Refusing steps
  refused : ∀ params e, (r.windows.add params).1 = .error e →
    (r.windows.add params).2 = { r.windows with refuseNext := false }
  fresh : ∀ params id, (r.windows.add params).1 = .ok id →
    (∀ p ∈ r.added, p.1 < id) ∧ (r.windows.add params).2 = { r.windows with
      lastId := id
      attached := r.windows.attached ++ [(id, params)]
      events := r.windows.events ++ [.added id] }
  down : ∀ id ∈ r.windows.ids, r.windows.remove id = (.ok (), { r.windows with
    attached := r.windows.attached.eraseP fun p => p.1 == id
    events := r.windows.events ++ [.removed id] })
  absent : ∀ id ∉ r.windows.ids, r.windows.remove id = (.error (.notAttached id), r.windows)
  /-- A guard is put up by an addition. It is refused if and only if a window was to be refused,
  and else it has the window that was added. -/
  attaches : ∀ params layout, (∃ e, (Guard.attach r.windows params layout).1 = .error e)
    ↔ WindowStep.Refusing steps
  repelled : ∀ params layout e w, Guard.attach r.windows params layout = (.error e, w) →
    r.windows.add params = (.error e, w)
  guarded : ∀ params layout guard w, Guard.attach r.windows params layout = (.ok guard, w) →
    ∃ id, guard = { window := some id, layout } ∧ r.windows.add params = (.ok id, w)
  placed : ∀ before params layout after, steps = before ++ .attach params layout :: after →
    ¬ WindowStep.Refusing before →
    ∃ g id, r.guards[(WindowRun.takeAll {} before).guards.length]? = some g
      ∧ g.own = some id ∧ g.guard.layout = layout ∧ (id, params) ∈ r.added
      ∧ ∀ p ∈ (WindowRun.takeAll {} before).added, p.1 < id
  /-- A guard has a window of its own, which it takes down once, with its first removal. -/
  guards : ∀ g ∈ r.guards, g.Keeps r.added r.windows
  owned : (r.guards.map (·.own)).Nodup
  removes : ∀ g ∈ r.guards, ∀ id, g.own = some id →
    (g.answers = [] →
      g.guard.remove r.windows = (true, { g.guard with window := none }, (r.windows.remove id).2)) ∧
    (g.answers ≠ [] → g.guard.remove r.windows = (false, g.guard, r.windows))
  released : ∀ before step after n g, steps = before ++ step :: after → step.releases n = true →
    (WindowRun.takeAll {} before).guards[n]? = some g →
    ∃ g', r.guards[n]? = some g' ∧ g'.own = g.own ∧ g'.Used r.windows

/-- However a stack is used, its log, its list and its guards agree with what was added and
removed. -/
theorem tracked_takeAll (steps : List WindowStep) : Tracked steps (WindowRun.takeAll {} steps) := by
  have h := Booked.takeAll steps
  have hlogged : (WindowRun.takeAll {} steps).added.map (·.1)
      = List.range' 1 (WindowRun.takeAll {} steps).windows.lastId := h.added ▸ h.log.added
  refine
    { rising := hlogged ▸ List.pairwise_lt_range'
      bounded := fun p hp => ?_
      logged := h.added
      once := h.log.removed
      ordered := h.log.ordered
      attached := h.attached
      refuses := fun params => (Windows.add_eq_error_iff _ params).trans h.refuses
      refused := fun params e he => Windows.add_of_error he
      fresh := fun params id hid => ⟨h.lastId_lt_of_add hid, Windows.add_of_ok hid⟩
      down := fun id hid => h.log.remove_of_mem hid
      absent := fun id hid => Windows.remove_of_notMem hid
      attaches := fun params layout => (Guard.attach_eq_error_iff _ params layout).trans h.refuses
      repelled := fun params layout e w he => Guard.attach_of_error he
      guarded := fun params layout guard w hg => Guard.attach_of_ok hg
      placed := ?_
      guards := h.guards
      owned := h.owned
      removes := fun g hg id hid => ⟨fun ha => ?_, fun ha => ?_⟩
      released := ?_ }
  · have hmem : p.1 ∈ List.range' 1 (WindowRun.takeAll {} steps).windows.lastId :=
      hlogged ▸ List.mem_map_of_mem hp
    have := (List.mem_range'_1.1 hmem).2
    have := h.bounded
    omega
  · rintro before params layout after rfl hrefuse
    exact placed_takeAll hrefuse params layout after
  · obtain ⟨-, id', hid', hremove⟩ | ⟨hu, -⟩ := (h.guards g hg).remove
    · obtain rfl : id' = id := Option.some.inj (hid'.symm.trans hid)
      exact hremove
    · exact absurd ha hu.answers_ne_nil
  · obtain ⟨hu, -⟩ | ⟨-, hremove⟩ := (h.guards g hg).remove
    · exact absurd hu.answers ha
    · exact hremove
  · rintro before step after n g rfl hstep hn
    exact used_of_releases hstep hn

/-- An overlay for a square display. -/
def pane (side : Int) : WindowParams :=
  .overlay { width := side, height := side }

/-- Two guards and one more window. An attachment between them is refused, and the window of the
second guard is removed before the guard is. -/
def sharing : List WindowStep :=
  [.attach (pane 1) {}, .add (pane 2), .refuseNext, .attach (pane 3) {}, .attach (pane 4) {},
    .release 0, .remove 3, .release 1, .drop 0, .drop 1]

theorem tracked_shared :
    (WindowRun.takeAll {} sharing).windows.attached = [(2, pane 2)]
      ∧ (WindowRun.takeAll {} sharing).windows.events
        = [.added 1, .added 2, .added 3, .removed 1, .removed 3]
      ∧ (WindowRun.takeAll {} sharing).guards.map (fun g => (g.own, g.answers, g.asked))
        = [(some 1, [true, false], [1]), (some 3, [true, false], [3])]
      ∧ (∃ e, (Guard.attach (WindowRun.takeAll {} (sharing.take 3)).windows (pane 3) {}).1
        = .error e)
      ∧ ∃ g id, (WindowRun.takeAll {} sharing).guards[1]? = some g ∧ g.own = some id
        ∧ (id, pane 4) ∈ (WindowRun.takeAll {} sharing).added
        ∧ g.Used (WindowRun.takeAll {} sharing).windows := by
  have h := tracked_takeAll sharing
  have hrefusing := tracked_takeAll (sharing.take 3)
  have hrefused := tracked_takeAll (sharing.take 4)
  have hnot : ¬ WindowStep.Refusing (sharing.take 4) := by
    intro hrefuse
    obtain ⟨e, he⟩ := (hrefused.refuses (pane 4)).2 hrefuse
    cases he
  obtain ⟨g, id, hn, hown, -, hadded, -⟩ :=
    h.placed (sharing.take 4) (pane 4) {} (sharing.drop 5) rfl hnot
  obtain ⟨g', hn', -, hused⟩ :=
    h.released (sharing.take 7) (.release 1) (sharing.drop 8) 1 _ rfl rfl rfl
  obtain rfl : g = g' := Option.some.inj (hn.symm.trans hn')
  refine ⟨rfl, rfl, rfl, (hrefusing.attaches (pane 3) {}).2 ⟨sharing.take 2, [], rfl, by simp⟩,
    g, id, hn, hown, hadded, hused⟩

end WindowRun

end EngineShell
