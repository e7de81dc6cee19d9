import EngineShell.Proofs.Sessions
import Mathlib.Data.Multiset.Bind

/-!
# Errands and accounts

What an attempt has under way is an errand: a session that is opening, one that is up, an outcome
to be shown, or a session that has ended and whose completion nobody has seen yet. `Accounts` says
what holds of all errands together: the submission that waits depends on exactly one of them, or
is lost, and the sinks and windows belong to that one. The lemmas on `Accounts` are the moves of a
host: an attempt starts (`launch`), the engine answers (`goUp`, `giveUp`), a session ends with an
outcome (`settle`) or without one (`abandon`), and the outcome is shown (`present`).
-/

namespace EngineShell

/-- Something that an attempt has under way. -/
inductive Errand where
  | opening (s : Session)
  | up (s : Session)
  | sent (attempt : Nat) (o : Outcome)
  | ended (s : Session)

namespace Errand

/-- The errand of an attempt to open that has come to its end. -/
def ofOpened (s : Session) : Option Outcome → Errand
  | none => up s
  | some _ => ended s

/-- Whether the submission that waits depends on the errand. -/
def carries : Errand → Bool
  | ended _ => false
  | _ => true

@[simp] theorem carries_opening (s : Session) : (opening s).carries = true := rfl

@[simp] theorem carries_up (s : Session) : (up s).carries = true := rfl

@[simp] theorem carries_sent (k : Nat) (o : Outcome) : (sent k o).carries = true := rfl

@[simp] theorem carries_ended (s : Session) : (ended s).carries = false := rfl

/-- How many of several errands carry a submission. -/
def carriers (es : Multiset Errand) : Nat :=
  es.countP fun e => e.carries = true

@[simp] theorem carriers_cons (e : Errand) (es : Multiset Errand) :
    carriers (e ::ₘ es) = carriers es + e.carries.toNat := by
  rw [carriers, carriers, Multiset.countP_cons]
  cases e.carries <;> rfl

@[simp] theorem carriers_zero : carriers 0 = 0 := rfl

theorem carriers_eq_zero {es : Multiset Errand} :
    carriers es = 0 ↔ ∀ e ∈ es, e.carries = false := by
  simp [carriers, Multiset.countP_eq_zero]

/-- The windows that the errand's session owns. -/
def windows : Errand → List Nat
  | opening s | up s | ended s => s.windows
  | sent .. => []

@[simp] theorem windows_opening (s : Session) : (opening s).windows = s.windows := rfl

@[simp] theorem windows_up (s : Session) : (up s).windows = s.windows := rfl

@[simp] theorem windows_ended (s : Session) : (ended s).windows = s.windows := rfl

/-- The attempt whose completion is still to come. -/
def completion? : Errand → Option Nat
  | opening s | up s | ended s => some s.sink
  | sent .. => none

/-- What holds of an errand: only the newest attempt carries a submission, and its sink is open as
long as its outcome is not sent. -/
def Fits (p : Platform) : Errand → Prop
  | opening s => s.IsFresh ∧ s.sink + 1 = p.sinks.length ∧ p.IsOpen s.sink
  | up s => s.IsUp ∧ s.sink + 1 = p.sinks.length ∧ p.IsOpen s.sink
  | sent k _ => k + 1 = p.sinks.length ∧ ¬ p.IsOpen k
  | ended s => s.IsOver ∧ s.sink < p.sinks.length ∧ ¬ p.IsOpen s.sink

theorem exists_of_not_carries {e : Errand} (h : e.carries = false) : ∃ s, e = ended s := by
  cases e <;> simp_all [carries]

theorem Fits.mono {p p' : Platform} {e : Errand} (h : e.Fits p) (he : e.carries = false)
    (hlen : p.sinks.length ≤ p'.sinks.length)
    (hopen : ∀ k < p.sinks.length, p'.IsOpen k → p.IsOpen k) : e.Fits p' := by
  obtain ⟨s, rfl⟩ := exists_of_not_carries he
  obtain ⟨hs, hlt, hclosed⟩ := h
  exact ⟨hs, hlt.trans_le hlen, fun ho => hclosed (hopen _ hlt ho)⟩

theorem Fits.windows_eq {p : Platform} {e : Errand} (h : e.Fits p) (he : e.carries = false) :
    e.windows = [] := by
  obtain ⟨s, rfl⟩ := exists_of_not_carries he
  exact h.1.windows_eq

end Errand

/-- The books of a host: which errands are under way, over what sessions share, and whether a
submission waits. `lost` counts the submissions that nothing carries any more. -/
structure Accounts (lost : Nat) (errands : Multiset Errand) (p : Platform) (pending : Bool) :
    Prop where
  carried : Errand.carriers errands + lost = pending.toNat
  fits : ∀ e ∈ errands, e.Fits p
  windows : (p.windows.ids : Multiset Nat) = errands.bind fun e => e.windows
  sinks : ∀ k, p.IsOpen k → ∃ s, (.opening s ∈ errands ∨ .up s ∈ errands) ∧ s.sink = k

namespace Accounts

variable {lost lost' : Nat} {errands rest : Multiset Errand} {p p' : Platform} {pending : Bool}
  {e : Errand} {s : Session}

theorem congr (h : Accounts lost errands p pending) (hs : p'.sinks = p.sinks)
    (hw : p'.windows.ids = p.windows.ids) : Accounts lost errands p' pending where
  carried := h.carried
  fits := by
    intro e he
    have := h.fits e he
    cases e <;> simpa only [Errand.Fits, Platform.isOpen_congr hs, hs] using this
  windows := by rw [hw, h.windows]
  sinks := fun k hk => h.sinks k ((Platform.isOpen_congr hs k).1 hk)

/-- An errand that carries the submission is the only one. -/
theorem rest_of_carries (h : Accounts lost (e ::ₘ rest) p pending) (he : e.carries = true) :
    lost = 0 ∧ pending = true ∧ ∀ e' ∈ rest, e'.carries = false := by
  have hc := h.carried
  rw [Errand.carriers_cons, he, Bool.toNat_true] at hc
  have hle := pending.toNat_le
  refine ⟨by omega, ?_, ?_⟩
  · cases pending
    · simp at hc
    · rfl
  · exact Errand.carriers_eq_zero.1 (by omega)

theorem eq_of_carries (h : Accounts lost errands p pending) (he : e ∈ errands)
    (hc : e.carries = true) : pending = true ∧ ∀ e' ∈ errands, e'.carries = true → e' = e := by
  obtain ⟨rest, rfl⟩ := Multiset.exists_cons_of_mem he
  obtain ⟨-, hp, hrest⟩ := h.rest_of_carries hc
  refine ⟨hp, fun e' he' hc' => ?_⟩
  rcases Multiset.mem_cons.1 he' with rfl | he'
  · rfl
  · simp [hrest e' he'] at hc'

theorem idle (h : Accounts lost errands p false) :
    lost = 0 ∧ (∀ e ∈ errands, e.carries = false) ∧ ∀ k, ¬ p.IsOpen k := by
  have hc := h.carried
  simp only [Bool.toNat_false, Nat.add_eq_zero_iff] at hc
  have hnone : ∀ e ∈ errands, e.carries = false := Errand.carriers_eq_zero.1 hc.1
  refine ⟨hc.2, hnone, fun k hk => ?_⟩
  obtain ⟨s, hs | hs, -⟩ := h.sinks k hk <;> simpa using hnone _ hs

theorem bind_windows (hfits : ∀ e ∈ rest, e.Fits p) (hrest : ∀ e ∈ rest, e.carries = false) :
    rest.bind (fun e => (e.windows : Multiset Nat)) = 0 := by
  refine (Multiset.bind_congr fun e he => ?_).trans (Multiset.bind_zero rest)
  rw [(hfits e he).windows_eq (hrest e he)]
  rfl

theorem ids_eq (h : Accounts lost (e ::ₘ rest) p pending) (he : e.carries = true) :
    p.windows.ids = e.windows := by
  obtain ⟨-, -, hrest⟩ := h.rest_of_carries he
  have hw := h.windows
  have hfits : ∀ e' ∈ rest, e'.Fits p := fun e' he' => h.fits e' (Multiset.mem_cons_of_mem he')
  rw [Multiset.cons_bind, bind_windows hfits hrest, add_zero, Multiset.coe_eq_coe] at hw
  have hlen : e.windows.length ≤ 1 := by
    have := h.fits e (Multiset.mem_cons_self _ _)
    cases e with
    | opening s => simp [Errand.windows, this.1.windows_eq]
    | up s =>
      obtain ⟨id, hid⟩ := this.1.covered
      simp [Errand.windows, hid]
    | sent k o => simp [Errand.windows]
    | ended s => simp [Errand.windows, this.1.windows_eq]
  -- the books know the windows as a multiset; with at most one of them that fixes their order
  rcases hl : e.windows with _ | ⟨id, _ | _⟩
  · exact List.perm_nil.1 (hl ▸ hw)
  · exact List.perm_singleton.1 (hl ▸ hw)
  · simp [hl] at hlen

theorem sink_eq (h : Accounts lost (e ::ₘ rest) p pending) (he : e.carries = true) {k : Nat}
    (hk : p.IsOpen k) : e.completion? = some k := by
  obtain ⟨-, -, hrest⟩ := h.rest_of_carries he
  obtain ⟨s, hs, rfl⟩ := h.sinks k hk
  simp only [Multiset.mem_cons] at hs
  rcases hs with (rfl | hs) | (rfl | hs)
  · rfl
  · simpa using hrest _ hs
  · rfl
  · simpa using hrest _ hs

/-- A session that is torn down leaves nothing on the display and no sink open. -/
theorem of_teardown (h : Accounts lost (.up s ::ₘ rest) p pending) {es : Multiset Errand}
    (hes : ∀ e ∈ es, e ∈ rest ∨ ∃ o, e = .sent s.sink o)
    (hcount : Errand.carriers es + lost' = pending.toNat) :
    Accounts lost' es (s.teardown p).2.2 pending := by
  obtain ⟨-, -, hrest⟩ := h.rest_of_carries (e := .up s) rfl
  obtain ⟨hup, hnew, -⟩ := h.fits (.up s) (Multiset.mem_cons_self _ _)
  have hs : s.stage ≠ .tornDown := by simp [hup.live]
  have hlen := s.length_sinks_teardown p
  have hclosed : ∀ k, ¬ (s.teardown p).2.2.IsOpen k := by
    intro k hk
    rw [Session.isOpen_teardown p hs] at hk
    have := h.sink_eq (e := .up s) rfl hk.1
    exact hk.2 (by simpa [Errand.completion?, eq_comm] using this)
  have hids : (s.teardown p).2.2.windows.ids = [] := by
    rw [Session.ids_teardown p hs, h.ids_eq (e := .up s) rfl]
    simp [Errand.windows]
  have hmem : ∀ e ∈ rest, e.Fits (s.teardown p).2.2 := fun e he =>
    (h.fits e (Multiset.mem_cons_of_mem he)).mono (hrest e he) hlen.ge
      fun k _ hk => (hclosed k hk).elim
  have hfits : ∀ e ∈ es, e.Fits (s.teardown p).2.2 := by
    intro e he
    rcases hes e he with he | ⟨o, rfl⟩
    · exact hmem e he
    · exact ⟨by rw [hlen, hnew], hclosed _⟩
  refine ⟨hcount, hfits, ?_, fun k hk => (hclosed k hk).elim⟩
  rw [hids]
  refine ((Multiset.bind_congr fun e he => ?_).trans (Multiset.bind_zero es)).symm
  rcases hes e he with hr | ⟨o, rfl⟩
  · rw [(hmem e hr).windows_eq (hrest e hr)]
    rfl
  · rfl

theorem settle (h : Accounts lost (.up s ::ₘ rest) p pending) (o : Outcome) :
    Accounts lost (.sent s.sink o ::ₘ rest) (s.teardown p).2.2 pending := by
  refine h.of_teardown (fun e he => ?_) ?_
  · rcases Multiset.mem_cons.1 he with rfl | he
    · exact .inr ⟨o, rfl⟩
    · exact .inl he
  · simpa using h.carried

theorem abandon (h : Accounts lost (.up s ::ₘ rest) p pending) :
    Accounts (lost + 1) rest (s.teardown p).2.2 pending := by
  refine h.of_teardown (fun e he => .inl he) ?_
  have := h.carried
  rw [Errand.carriers_cons, Errand.carries_up, Bool.toNat_true] at this
  omega

theorem discard (h : Accounts lost (.ended s ::ₘ rest) p pending) :
    Accounts lost rest p pending where
  carried := by simpa using h.carried
  fits := fun e he => h.fits e (Multiset.mem_cons_of_mem he)
  windows := by
    have := h.fits (.ended s) (Multiset.mem_cons_self _ _)
    have hw := h.windows
    rwa [Multiset.cons_bind, this.windows_eq rfl, Multiset.coe_nil, zero_add] at hw
  sinks := by
    intro k hk
    obtain ⟨s', hs', hk'⟩ := h.sinks k hk
    exact ⟨s', by simpa using hs', hk'⟩

theorem present {k : Nat} {o : Outcome} (h : Accounts lost (.sent k o ::ₘ rest) p pending) :
    pending = true ∧ k + 1 = p.sinks.length ∧ Accounts lost rest p false := by
  obtain ⟨rfl, rfl, hrest⟩ := h.rest_of_carries (e := .sent k o) rfl
  refine ⟨rfl, (h.fits _ (Multiset.mem_cons_self _ _)).1, ?_, ?_, ?_, ?_⟩
  · simpa using Errand.carriers_eq_zero.2 hrest
  · exact fun e he => h.fits e (Multiset.mem_cons_of_mem he)
  · have hw := h.windows
    rwa [Multiset.cons_bind, Errand.windows, Multiset.coe_nil, zero_add] at hw
  · intro k' hk'
    simpa [Errand.completion?] using h.sink_eq (e := .sent k o) rfl hk'

theorem launch (h : Accounts lost errands p false) (hs : s.IsFresh)
    (hnew : s.sink = p.sinks.length) :
    Accounts lost (.opening s ::ₘ errands) (p.addSink {}) true := by
  obtain ⟨rfl, hnone, hclosed⟩ := h.idle
  have hlen : (p.addSink {}).sinks.length = p.sinks.length + 1 := by simp [Platform.addSink]
  have hopen : ∀ k, (p.addSink {}).IsOpen k ↔ k = p.sinks.length := fun k => by
    simp [Platform.isOpen_addSink, hclosed]
  refine ⟨?_, ?_, ?_, ?_⟩
  · simpa using Errand.carriers_eq_zero.2 hnone
  · intro e he
    rcases Multiset.mem_cons.1 he with rfl | he
    · exact ⟨hs, by rw [hlen, hnew], (hopen _).2 hnew⟩
    · refine (h.fits e he).mono (hnone e he) (by omega) fun k hk ho => ?_
      have := (hopen k).1 ho
      omega
  · rw [Multiset.cons_bind, ← h.windows, Errand.windows, hs.windows_eq]
    exact (zero_add _).symm
  · intro k hk
    exact ⟨s, by simp, hnew.trans ((hopen k).1 hk).symm⟩

section Conclude

variable {o : Opened} (h : Accounts lost (.opening s ::ₘ rest) p pending)

include h

theorem of_opening : p.windows.ids = [] ∧ ∀ k, p.IsOpen k → k = s.sink := by
  obtain ⟨hfresh, -⟩ := h.fits (.opening s) (Multiset.mem_cons_self _ _)
  refine ⟨?_, fun k hk => ?_⟩
  · rw [h.ids_eq (e := .opening s) rfl, Errand.windows_opening, hfresh.windows_eq]
  · simpa [Errand.completion?, eq_comm] using h.sink_eq (e := .opening s) rfl hk

theorem goUp (ho : o.Succeeded s p) :
    Accounts lost (.up o.session ::ₘ rest) o.platform pending := by
  obtain ⟨-, -, hrest⟩ := h.rest_of_carries (e := .opening s) rfl
  obtain ⟨-, hnew, hopen⟩ := h.fits (.opening s) (Multiset.mem_cons_self _ _)
  obtain ⟨hids, hsink⟩ := h.of_opening
  have hfits : ∀ e ∈ rest, e.Fits p := fun e he => h.fits e (Multiset.mem_cons_of_mem he)
  have hiff := Platform.isOpen_congr ho.sinks
  refine ⟨by simpa using h.carried, fun e he => ?_, ?_, fun k hk => ?_⟩
  · rcases Multiset.mem_cons.1 he with rfl | he
    · exact ⟨ho.up, by rw [ho.sink, ho.sinks, hnew], by rwa [hiff, ho.sink]⟩
    · exact (hfits e he).mono (hrest e he) (by rw [ho.sinks]) fun k _ => (hiff k).1
  · rw [ho.ids, hids, Multiset.cons_bind, bind_windows hfits hrest, add_zero]
    rfl
  · refine ⟨_, .inr (Multiset.mem_cons_self _ _), ?_⟩
    rw [ho.sink, hsink k ((hiff k).1 hk)]

theorem giveUp {f : Outcome} (ho : o.Failed s p f) :
    Accounts lost (.sent s.sink f ::ₘ .ended o.session ::ₘ rest) o.platform pending := by
  obtain ⟨-, -, hrest⟩ := h.rest_of_carries (e := .opening s) rfl
  obtain ⟨-, hnew, -⟩ := h.fits (.opening s) (Multiset.mem_cons_self _ _)
  obtain ⟨hids, hsink⟩ := h.of_opening
  have hfits : ∀ e ∈ rest, e.Fits p := fun e he => h.fits e (Multiset.mem_cons_of_mem he)
  have hclosed : ∀ k, ¬ o.platform.IsOpen k := fun k hk =>
    ((ho.isOpen k).1 hk).2 (hsink k ((ho.isOpen k).1 hk).1)
  refine ⟨by simpa using h.carried, fun e he => ?_, ?_, fun k hk => (hclosed k hk).elim⟩
  · simp only [Multiset.mem_cons] at he
    rcases he with rfl | rfl | he
    · exact ⟨by rw [ho.length_sinks, hnew], hclosed _⟩
    · exact ⟨ho.ended, by rw [ho.sink, ho.length_sinks]; omega, hclosed _⟩
    · exact (hfits e he).mono (hrest e he) ho.length_sinks.ge fun k _ hk => (hclosed k hk).elim
  · rw [ho.ids, hids, Multiset.cons_bind, Multiset.cons_bind, bind_windows hfits hrest,
      Errand.windows_ended, ho.ended.windows_eq]
    rfl

end Conclude

end Accounts

end EngineShell
