import EngineShell.Locator
import EngineShell.Proofs.Numerals
import EngineShell.Proofs.Patterns
import EngineShell.Proofs.Trimming

/-!
# The grammar of locators

`Spelling` says which texts are locators and what they spell, and `Fails` what each check refuses,
both by how a text is put together and not by how it is read. `parse_reads` says that a text is read
as the locator that it spells, and else refused for the first check that it fails. A text with a
slash has its parts in one way only (`Parts.unique`), and these are what the pattern of locators
captures (`Parts.captures`).
-/

namespace EngineShell

namespace Locator

section Cuts

variable {sep : Char} {cs front back : List Char}

theorem cutFirst_eq_none : cutFirst sep cs = none ↔ sep ∉ cs := by
  induction cs with
  | nil => simp [cutFirst]
  | cons c cs ih =>
    rw [cutFirst]
    split_ifs with hc
    · simp [hc]
    · simp [ih, Ne.symm hc]

theorem cutFirst_append (h : sep ∉ front) :
    cutFirst sep (front ++ sep :: back) = some (front, back) := by
  induction front with
  | nil => simp [cutFirst]
  | cons c front ih =>
    rw [List.mem_cons, not_or] at h
    rw [List.cons_append, cutFirst, if_neg (Ne.symm h.1), ih h.2]
    rfl

theorem cutFirst_eq_some :
    cutFirst sep cs = some (front, back) ↔ cs = front ++ sep :: back ∧ sep ∉ front := by
  refine ⟨fun h => ?_, fun ⟨hcs, h⟩ => hcs ▸ cutFirst_append h⟩
  induction cs generalizing front with
  | nil => cases h
  | cons c cs ih =>
    rw [cutFirst] at h
    split_ifs at h with hc
    · cases h
      exact ⟨by simp [hc], by simp⟩
    · obtain ⟨⟨front', back'⟩, hcut, heq⟩ := Option.map_eq_some_iff.1 h
      cases heq
      obtain ⟨rfl, hsep⟩ := ih hcut
      exact ⟨rfl, by simp [Ne.symm hc, hsep]⟩

theorem cutLast_eq_none : cutLast sep cs = none ↔ sep ∉ cs := by
  induction cs with
  | nil => simp [cutLast]
  | cons c cs ih =>
    rw [cutLast, List.mem_cons, not_or, ← ih]
    rcases cutLast sep cs with _ | ⟨front, back⟩
    · simp [eq_comm]
    · simp

theorem cutLast_append (h : sep ∉ back) :
    cutLast sep (front ++ sep :: back) = some (front, back) := by
  induction front with
  | nil => simp [cutLast, cutLast_eq_none.2 h]
  | cons c front ih => rw [List.cons_append, cutLast, ih]

theorem cutLast_eq_some :
    cutLast sep cs = some (front, back) ↔ cs = front ++ sep :: back ∧ sep ∉ back := by
  refine ⟨fun h => ?_, fun ⟨hcs, h⟩ => hcs ▸ cutLast_append h⟩
  induction cs generalizing front with
  | nil => cases h
  | cons c cs ih =>
    rw [cutLast] at h
    rcases hcut : cutLast sep cs with _ | ⟨front', back'⟩
    · rw [hcut] at h
      dsimp only at h
      split_ifs at h with hc
      cases h
      exact ⟨by simp [hc], cutLast_eq_none.1 hcut⟩
    · rw [hcut] at h
      cases h
      obtain ⟨rfl, hsep⟩ := ih hcut
      exact ⟨rfl, hsep⟩

end Cuts

section Parts

variable {t front address host port group : List Char} {user : Option (List Char)} {n : Nat}

/-- What stands in front of the slash: the address, behind the user and an at sign if there is a
user. -/
def placed (user : Option (List Char)) (address : List Char) : List Char :=
  match user with
  | none => address
  | some u => u ++ '@' :: address

/-- How a text with a slash is put together. Its first slash ends the address, and the first at sign
in front of that slash ends the user. -/
structure Parts (t : List Char) (user : Option (List Char)) (address group : List Char) : Prop where
  text : t = placed user address ++ '/' :: group
  address_slash : '/' ∉ address
  user_slash : ∀ u ∈ user, '/' ∉ u
  user_at : ∀ u ∈ user, '@' ∉ u
  address_at : user = none → '@' ∉ address

theorem cutUser_eq_iff : cutUser front = (user, address) ↔
    front = placed user address ∧ (∀ u ∈ user, '@' ∉ u) ∧ (user = none → '@' ∉ address) := by
  unfold cutUser
  rcases hcut : cutFirst '@' front with _ | ⟨u, rest⟩
  · have hat := cutFirst_eq_none.1 hcut
    rcases user with _ | u
    · refine ⟨fun h => ?_, fun h => by rw [h.1]; rfl⟩
      cases h
      exact ⟨rfl, by simp, fun _ => hat⟩
    · refine ⟨nofun, fun h => (hat ?_).elim⟩
      rw [h.1]
      simp [placed]
  · obtain ⟨hfront, hu⟩ := cutFirst_eq_some.1 hcut
    constructor
    · intro h
      cases h
      exact ⟨hfront, by simpa using hu, by simp⟩
    · rintro ⟨hplaced, huser, hnone⟩
      rcases user with _ | u'
      · refine (hnone rfl ?_).elim
        rw [show address = front from hplaced.symm, hfront]
        simp
      · rw [placed] at hplaced
        rw [hplaced, cutFirst_append (huser u' rfl)] at hcut
        cases hcut
        rfl

theorem slash_mem_placed : '/' ∈ placed user address ↔ '/' ∈ address ∨ ∃ u ∈ user, '/' ∈ u := by
  rcases user with _ | u
  · simp [placed]
  · simp [placed, or_comm]

theorem parts_iff : Parts t user address group ↔
    ∃ front, cutFirst '/' t = some (front, group) ∧ cutUser front = (user, address) := by
  simp only [cutFirst_eq_some, cutUser_eq_iff]
  constructor
  · intro h
    refine ⟨_, ⟨h.text, ?_⟩, rfl, h.user_at, h.address_at⟩
    rw [slash_mem_placed, not_or]
    exact ⟨h.address_slash, fun ⟨u, hu, hslash⟩ => h.user_slash u hu hslash⟩
  · rintro ⟨front, ⟨ht, hslash⟩, rfl, huser, haddress⟩
    rw [slash_mem_placed, not_or] at hslash
    exact ⟨ht, hslash.1, fun u hu hu' => hslash.2 ⟨u, hu, hu'⟩, huser, haddress⟩

theorem exists_parts (h : '/' ∈ t) : ∃ user address group, Parts t user address group := by
  obtain ⟨⟨front, group⟩, hcut⟩ : ∃ r, cutFirst '/' t = some r :=
    Option.ne_none_iff_exists'.1 fun hnone => cutFirst_eq_none.1 hnone h
  exact ⟨_, _, group, parts_iff.2 ⟨front, hcut, rfl⟩⟩

theorem Parts.slash_mem (h : Parts t user address group) : '/' ∈ t := by
  simp [h.text]

theorem Parts.unique {user' : Option (List Char)} {address' group' : List Char}
    (h : Parts t user address group) (h' : Parts t user' address' group') :
    user' = user ∧ address' = address ∧ group' = group := by
  obtain ⟨front, hcut, huser⟩ := parts_iff.1 h
  obtain ⟨front', hcut', huser'⟩ := parts_iff.1 h'
  cases hcut.symm.trans hcut'
  cases huser.symm.trans huser'
  exact ⟨rfl, rfl, rfl⟩

/-- An address with a colon: the host reaches to the last one, the rest is the port. -/
def HostPort (address host port : List Char) : Prop :=
  address = host ++ ':' :: port ∧ ':' ∉ port

theorem HostPort.unique {host' port' : List Char} (h : HostPort address host port) :
    HostPort address host' port' ↔ host' = host ∧ port' = port := by
  have hcut := cutLast_eq_some.2 h
  refine ⟨fun h' => ?_, fun ⟨h₁, h₂⟩ => h₁ ▸ h₂ ▸ h⟩
  cases hcut.symm.trans (cutLast_eq_some.2 h')
  exact ⟨rfl, rfl⟩

/-- A port: a numeral, maybe after a plus sign, of sixteen bits that are not all zero. -/
def IsPort (cs : List Char) (n : Nat) : Prop :=
  Text.IsUnsigned cs n ∧ 1 ≤ n ∧ n ≤ 65535

theorem IsPort.colon_notMem (h : IsPort port n) : ':' ∉ port :=
  h.1.notMem rfl (by decide)

theorem IsPort.slash_notMem (h : IsPort port n) : '/' ∉ port :=
  h.1.notMem rfl (by decide)

theorem IsPort.at_notMem (h : IsPort port n) : '@' ∉ port :=
  h.1.notMem rfl (by decide)

section

variable {α β : Type} {f : α → β} {x : Except LocatorError α}

theorem map_eq_ok {b : β} : x.map f = .ok b ↔ ∃ a, x = .ok a ∧ f a = b := by
  rcases x with e | a <;> simp [Except.map]

theorem map_eq_error {e : LocatorError} : x.map f = .error e ↔ x = .error e := by
  rcases x with e | a <;> simp [Except.map]

end

theorem parsePort_eq_ok : parsePort port = .ok n ↔ IsPort port n := by
  rw [parsePort, IsPort, ← Text.readUnsigned_eq_some]
  rcases Text.readUnsigned port with _ | m
  · simp
  · simp only [Option.some.injEq]
    split_ifs with hlarge hzero
    · exact ⟨nofun, by omega⟩
    · exact ⟨nofun, by omega⟩
    · rw [Except.ok.injEq]
      omega

theorem parsePort_eq_error {e : LocatorError} : parsePort port = .error e ↔
    (.invalidPort = e ∧ ∀ n, Text.IsUnsigned port n → 65535 < n)
      ∨ (.portOutOfRange = e ∧ Text.IsUnsigned port 0) := by
  simp only [parsePort, ← Text.readUnsigned_eq_some]
  rcases Text.readUnsigned port with _ | m
  · simp
  · simp only [Option.some.injEq, forall_eq']
    split_ifs with hlarge hzero
    · have : m ≠ 0 := by omega
      simp [hlarge, this]
    · simp [hzero]
    · simp [hlarge, hzero]

theorem parseAddress_eq_ok : parseAddress address = .ok (host, n) ↔
    ∃ port, HostPort address host port ∧ host ≠ [] ∧ IsPort port n := by
  unfold parseAddress
  rcases hcut : cutLast ':' address with _ | ⟨host', port'⟩
  · refine ⟨nofun, fun ⟨port, h, _⟩ => (cutLast_eq_none.1 hcut ?_).elim⟩
    simp [h.1]
  · simp only [(show HostPort address host' port' from cutLast_eq_some.1 hcut).unique]
    split_ifs with hhost hport
    · exact ⟨nofun, fun ⟨port, h, hne, _⟩ => (hne (h.1.trans hhost)).elim⟩
    · refine ⟨nofun, fun ⟨port, h, _, hn⟩ => ?_⟩
      rcases hn.1 with hn | ⟨ds, hds, _⟩
      · exact (hn.ne_nil (h.2.trans hport)).elim
      · simp [h.2, hport] at hds
    · simp only [map_eq_ok, parsePort_eq_ok, Prod.mk.injEq]
      constructor
      · rintro ⟨m, hm, rfl, rfl⟩
        exact ⟨port', ⟨rfl, rfl⟩, hhost, hm⟩
      · rintro ⟨port, ⟨rfl, rfl⟩, -, hn⟩
        exact ⟨n, hn, rfl, rfl⟩

/-- Reading a text with a slash by its parts. -/
def readParts (user : Option (List Char)) (address group : List Char) :
    Except LocatorError Locator :=
  if group = [] then .error .emptyGroup
  else if user = some [] then .error .emptyUser
  else if address = [] then
    if user = none then .error .emptyHostPort
    else .ok { user := user.map .ofList, group := .ofList group }
  else
    (parseAddress address).map fun (host, port) =>
      { user := user.map .ofList, host := some (.ofList host), port := some port,
        group := .ofList group }

theorem parsePlaced_eq (h : cutUser front = (user, address)) :
    parsePlaced front group = readParts user address group := by
  rw [parsePlaced, readParts, h]
  rcases user with _ | _ | ⟨c, u⟩ <;> rcases address with _ | ⟨d, address⟩ <;> simp

theorem parse_of_not_clean {raw : String} (h : ¬ Text.Clean (Text.trim raw.toList)) :
    parse raw = .error .invalidChar :=
  if_pos (by simpa [Text.Clean] using h)

theorem parse_of_notMem {raw : String} (hclean : Text.Clean (Text.trim raw.toList))
    (h : '/' ∉ Text.trim raw.toList) :
    parse raw = if Text.trim raw.toList = [] then .error .emptyGroup
      else .ok { group := .ofList (Text.trim raw.toList) } := by
  rw [parse, if_neg (by simpa [Text.Clean] using hclean), cutFirst_eq_none.2 h]

theorem parse_of_parts {raw : String} (hclean : Text.Clean (Text.trim raw.toList))
    (h : Parts (Text.trim raw.toList) user address group) :
    parse raw = readParts user address group := by
  obtain ⟨front, hcut, huser⟩ := parts_iff.1 h
  rw [parse, if_neg (by simpa [Text.Clean] using hclean), hcut]
  exact parsePlaced_eq huser

/-- What a text with these parts spells. -/
def SpellsParts (user : Option (List Char)) (address group : List Char) (l : Locator) : Prop :=
  group ≠ [] ∧ user ≠ some [] ∧
    ((address = [] ∧ user ≠ none ∧ l = { user := user.map .ofList, group := .ofList group })
      ∨ ∃ host port n, HostPort address host port ∧ host ≠ [] ∧ IsPort port n
        ∧ l = { user := user.map .ofList, host := some (.ofList host), port := some n,
                group := .ofList group })

theorem readParts_eq_ok {l : Locator} :
    readParts user address group = .ok l ↔ SpellsParts user address group l := by
  unfold readParts SpellsParts
  split_ifs with hgroup huser haddress hnone
  · simp [hgroup]
  · simp [huser]
  · simp [haddress, hnone, HostPort]
  · simp [haddress, hgroup, hnone, huser, HostPort, eq_comm]
  · simp only [map_eq_ok, Prod.exists, parseAddress_eq_ok, hgroup, huser, haddress, ne_eq,
      not_false_eq_true, true_and, false_and, false_or]
    constructor
    · rintro ⟨host, n, ⟨port, haddr, hhost, hport⟩, rfl⟩
      exact ⟨host, port, n, haddr, hhost, hport, rfl⟩
    · rintro ⟨host, port, n, haddr, hhost, hport, rfl⟩
      exact ⟨host, n, ⟨port, haddr, hhost, hport⟩, rfl⟩

/-- The user of a locator. -/
structure IsUser (u : List Char) : Prop where
  ne_nil : u ≠ []
  at_notMem : '@' ∉ u
  slash_notMem : '/' ∉ u

/-- Which texts are locators, and what they spell. -/
inductive Spelling : List Char → Locator → Prop
  | group {t : List Char} : t ≠ [] → '/' ∉ t → Spelling t { group := .ofList t }
  | user {u group : List Char} : IsUser u → group ≠ [] →
    Spelling (u ++ '@' :: [] ++ '/' :: group) { user := some (.ofList u), group := .ofList group }
  | host {host port group : List Char} {n : Nat} : host ≠ [] → '@' ∉ host → '/' ∉ host →
    IsPort port n → group ≠ [] →
    Spelling (host ++ ':' :: port ++ '/' :: group)
      { host := some (.ofList host), port := some n, group := .ofList group }
  | userHost {u host port group : List Char} {n : Nat} : IsUser u → host ≠ [] → '/' ∉ host →
    IsPort port n → group ≠ [] →
    Spelling (u ++ '@' :: (host ++ ':' :: port) ++ '/' :: group)
      { user := some (.ofList u), host := some (.ofList host), port := some n,
        group := .ofList group }

theorem IsUser.parts {u : List Char} (hu : IsUser u) (haddress : '/' ∉ address) :
    Parts (u ++ '@' :: address ++ '/' :: group) (some u) address group where
  text := rfl
  address_slash := haddress
  user_slash := by simpa using hu.slash_notMem
  user_at := by simpa using hu.at_notMem
  address_at := nofun

theorem parts_none (hat : '@' ∉ address) (hslash : '/' ∉ address) :
    Parts (address ++ '/' :: group) none address group where
  text := rfl
  address_slash := hslash
  user_slash := by simp
  user_at := by simp
  address_at _ := hat

theorem Parts.isUser {u : List Char} (h : Parts t (some u) address group) (hu : u ≠ []) :
    IsUser u :=
  ⟨hu, h.user_at u rfl, h.user_slash u rfl⟩

theorem Parts.spelling_iff {l : Locator} (h : Parts t user address group) :
    Spelling t l ↔ SpellsParts user address group l := by
  constructor
  · intro hs
    cases hs with
    | group _ hslash => exact (hslash h.slash_mem).elim
    | user hu hgroup =>
      obtain ⟨rfl, rfl, rfl⟩ := h.unique (hu.parts (by simp))
      exact ⟨hgroup, by simpa using hu.ne_nil, .inl ⟨rfl, nofun, rfl⟩⟩
    | host hhost hat hslash hport hgroup =>
      obtain ⟨rfl, rfl, rfl⟩ := h.unique
        (parts_none (by simp [hat, hport.at_notMem]) (by simp [hslash, hport.slash_notMem]))
      exact ⟨hgroup, nofun, .inr ⟨_, _, _, ⟨rfl, hport.colon_notMem⟩, hhost, hport, rfl⟩⟩
    | userHost hu hhost hslash hport hgroup =>
      obtain ⟨rfl, rfl, rfl⟩ := h.unique (hu.parts (by simp [hslash, hport.slash_notMem]))
      exact ⟨hgroup, by simpa using hu.ne_nil,
        .inr ⟨_, _, _, ⟨rfl, hport.colon_notMem⟩, hhost, hport, rfl⟩⟩
  · rintro ⟨hgroup, huser, ⟨rfl, hsome, rfl⟩ | ⟨host, port, n, ⟨rfl, -⟩, hhost, hport, rfl⟩⟩
    · obtain ⟨u, rfl⟩ := Option.ne_none_iff_exists'.1 hsome
      rw [h.text]
      exact .user (h.isUser (by simpa using huser)) hgroup
    · have hslash : '/' ∉ host := fun hmem => h.address_slash (List.mem_append_left _ hmem)
      rw [h.text]
      rcases user with _ | u
      · exact .host hhost (fun hmem => h.address_at rfl (List.mem_append_left _ hmem)) hslash hport
          hgroup
      · exact .userHost (h.isUser (by simpa using huser)) hhost hslash hport hgroup

theorem spelling_iff_of_notMem {l : Locator} (h : '/' ∉ t) :
    Spelling t l ↔ t ≠ [] ∧ l = { group := .ofList t } := by
  constructor
  · intro hs
    cases hs with
    | group hne _ => exact ⟨hne, rfl⟩
    | user | host | userHost => simp at h
  · rintro ⟨hne, rfl⟩
    exact .group hne h

/-- The checks of a text, in the order in which they are made. -/
def checks : List LocatorError :=
  [.invalidChar, .emptyGroup, .emptyUser, .emptyHostPort, .wrongHostPort, .emptyHost, .emptyPort,
    .invalidPort, .portOutOfRange]

/-- What each check refuses of an address. -/
def AddressFails (address : List Char) : LocatorError → Prop
  | .wrongHostPort => ':' ∉ address
  | .emptyHost => ∃ port, HostPort address [] port
  | .emptyPort => ∃ host, HostPort address host []
  | .invalidPort => ∃ host port, HostPort address host port
    ∧ ∀ n, Text.IsUnsigned port n → 65535 < n
  | .portOutOfRange => ∃ host port, HostPort address host port ∧ Text.IsUnsigned port 0
  | _ => False

/-- What each check refuses of the parts of a text with a slash. Behind a user there need not be an
address. -/
def PartsFail (user : Option (List Char)) (address group : List Char) : LocatorError → Prop
  | .emptyGroup => group = []
  | .emptyUser => user = some []
  | .emptyHostPort => user = none ∧ address = []
  | e => address ≠ [] ∧ AddressFails address e

/-- What each check refuses. -/
inductive Fails (t : List Char) : LocatorError → Prop
  | blank : ¬ Text.Clean t → Fails t .invalidChar
  | empty : t = [] → Fails t .emptyGroup
  | parts {user : Option (List Char)} {address group : List Char} {e : LocatorError} :
    Parts t user address group → PartsFail user address group e → Fails t e

/-- The first check that refuses a text. -/
def FirstFault (t : List Char) (e : LocatorError) : Prop :=
  Fails t e ∧ ∃ passed later, checks = passed ++ e :: later ∧ ∀ e' ∈ passed, ¬ Fails t e'

open Classical in
theorem firstFault_iff {e : LocatorError} :
    FirstFault t e ↔ checks.find? (Fails t ·) = some e := by
  simp [FirstFault, List.find?_eq_some_iff_append]

open Classical in
theorem parseAddress_eq_error {e : LocatorError} : parseAddress address = .error e ↔
    checks.find? (AddressFails address ·) = some e := by
  unfold parseAddress
  rcases hcut : cutLast ':' address with _ | ⟨host, port⟩
  · simp [checks, AddressFails, cutLast_eq_none.1 hcut]
  have hhp : HostPort address host port := cutLast_eq_some.1 hcut
  have hcolon : ':' ∈ address := by simp [hhp.1]
  dsimp only
  split_ifs with hhost hport
  · simp [checks, AddressFails, hcolon, hhp.unique, hhost]
  · simp [checks, AddressFails, hcolon, hhp.unique, Ne.symm hhost, hport]
  rw [map_eq_error, parsePort_eq_error]
  by_cases hlarge : ∀ n, Text.IsUnsigned port n → 65535 < n
  · -- a port that spells only large numbers does not spell zero
    have hzero : ¬ Text.IsUnsigned port 0 := fun h => absurd (hlarge 0 h) (by omega)
    simp [checks, AddressFails, hcolon, hhp.unique, Ne.symm hhost, Ne.symm hport, hzero, and_comm]
  · simp [checks, AddressFails, hcolon, hhp.unique, Ne.symm hhost, Ne.symm hport, hlarge, and_comm]

open Classical in
theorem readParts_eq_error {e : LocatorError} : readParts user address group = .error e ↔
    checks.find? (PartsFail user address group ·) = some e := by
  unfold readParts
  split_ifs with hgroup huser haddress hnone
  · simp [checks, PartsFail, AddressFails, hgroup]
  · simp [checks, PartsFail, AddressFails, hgroup, huser]
  · simp [checks, PartsFail, AddressFails, hgroup, haddress, hnone]
  · simp [checks, PartsFail, hgroup, haddress, hnone, huser]
  · -- the checks of the parts have passed, so what the address fails decides
    have heq : PartsFail user address group = AddressFails address := by
      funext e
      cases e <;> simp [PartsFail, AddressFails, hgroup, huser, haddress]
    rw [map_eq_error, parseAddress_eq_error, heq]

theorem Parts.fails_iff {e : LocatorError} (h : Parts t user address group)
    (hclean : Text.Clean t) : Fails t e ↔ PartsFail user address group e := by
  refine ⟨fun hf => ?_, .parts h⟩
  cases hf with
  | blank hblank => exact (hblank hclean).elim
  | empty hempty => simpa [hempty] using h.slash_mem
  | parts h' hf =>
    obtain ⟨rfl, rfl, rfl⟩ := h'.unique h
    exact hf

theorem fails_iff_of_notMem {e : LocatorError} (h : '/' ∉ t) (hclean : Text.Clean t) :
    Fails t e ↔ e = .emptyGroup ∧ t = [] := by
  refine ⟨fun hf => ?_, fun ⟨he, ht⟩ => he ▸ .empty ht⟩
  cases hf with
  | blank hblank => exact (hblank hclean).elim
  | empty hempty => exact ⟨rfl, hempty⟩
  | parts h' _ => exact (h h'.slash_mem).elim

theorem parse_eq_ok_iff {raw : String} {l : Locator} : parse raw = .ok l ↔
    Text.Clean (Text.trim raw.toList) ∧ Spelling (Text.trim raw.toList) l := by
  by_cases hclean : Text.Clean (Text.trim raw.toList)
  · by_cases hslash : '/' ∈ Text.trim raw.toList
    · obtain ⟨user, address, group, h⟩ := exists_parts hslash
      simp [parse_of_parts hclean h, h.spelling_iff, readParts_eq_ok, hclean]
    · rw [parse_of_notMem hclean hslash, spelling_iff_of_notMem hslash]
      split_ifs with hempty <;> simp [hempty, hclean, eq_comm]
  · simp [parse_of_not_clean hclean, hclean]

open Classical in
theorem parse_eq_error_iff {raw : String} {e : LocatorError} : parse raw = .error e ↔
    FirstFault (Text.trim raw.toList) e := by
  rw [firstFault_iff]
  by_cases hclean : Text.Clean (Text.trim raw.toList)
  · by_cases hslash : '/' ∈ Text.trim raw.toList
    · obtain ⟨user, address, group, h⟩ := exists_parts hslash
      simp only [parse_of_parts hclean h, h.fails_iff hclean, readParts_eq_error]
    · rw [parse_of_notMem hclean hslash]
      simp only [fails_iff_of_notMem hslash hclean]
      split_ifs with hempty <;> simp [checks, hempty]
  · simp [parse_of_not_clean hclean, checks, Fails.blank hclean]

end Parts

section Captures

variable {t address group : List Char} {user : Option (List Char)}

/-- The part of the pattern for a user, `(?P<user>[^@/]*)@`. -/
def userPattern : Pattern :=
  (Pattern.capture "user" (.many fun c => c != '@' && c != '/')).seq (.char (· == '@'))

/-- The part of the pattern behind the user, `(?P<hostport>[^/]*)/(?P<group>.*)`. -/
def placePattern : Pattern :=
  (Pattern.capture "hostport" (.many (· != '/'))).seq
    ((Pattern.char (· == '/')).seq (.capture "group" (.many (· != '\n'))))

/-- The pattern of locators with a slash,
`^(?:(?P<user>[^@/]*)@)?(?P<hostport>[^/]*)/(?P<group>.*)$`. -/
def pattern : Pattern :=
  userPattern.option.seq placePattern

theorem ways_userPattern {u : List Char} (cs : List Char) (hat : '@' ∉ u) (hslash : '/' ∉ u) :
    userPattern.ways (u ++ '@' :: cs)
      = [{ matched := u ++ ['@'], rest := cs, captured := [("user", u)] }] := by
  rw [userPattern, Pattern.ways_stretch]
  · rfl
  · intro c hc
    simpa using ⟨ne_of_mem_of_not_mem hc hat, ne_of_mem_of_not_mem hc hslash⟩
  · simp
  · simp +contextual [Pattern.ways]

theorem ways_userPattern_of_notMem (cs : List Char) (hat : '@' ∉ address)
    (hslash : '/' ∉ address) : userPattern.ways (address ++ '/' :: cs) = [] := by
  rw [userPattern, Pattern.ways_stretch]
  · rfl
  · intro c hc
    simpa using ⟨ne_of_mem_of_not_mem hc hat, ne_of_mem_of_not_mem hc hslash⟩
  · simp
  · simp +contextual [Pattern.ways]

theorem ways_placePattern (hslash : '/' ∉ address) (hline : '\n' ∉ group) :
    ∃ others, placePattern.ways (address ++ '/' :: group)
      = { matched := address ++ '/' :: group, rest := [],
          captured := [("hostport", address), ("group", group)] } :: others := by
  rw [placePattern, Pattern.ways_stretch]
  · have hall : ∀ c ∈ group, (c != '\n') = true :=
      fun c hc => by simpa using ne_of_mem_of_not_mem hc hline
    obtain ⟨shorter, hs⟩ := Pattern.stretches_of_all hall
    simp [Pattern.ways, hs, Pattern.extend]
  · intro c hc
    simpa using ne_of_mem_of_not_mem hc hslash
  · simp
  · simp +contextual [Pattern.ways]

/-- The pattern matches a text with a slash, and captures its parts. -/
theorem Parts.captures (h : Parts t user address group) (hline : '\n' ∉ t) :
    pattern.captures t = some (user.toList.map ("user", ·) ++ [("hostport", address),
      ("group", group)]) := by
  have hgroup : '\n' ∉ group := fun hmem => hline (by simp [h.text, hmem])
  obtain ⟨others, hplace⟩ := ways_placePattern h.address_slash hgroup
  -- with a user the option is taken, and without one it has no way; behind it there is one way
  have hways : ∃ m others, pattern.ways t = m :: others ∧ m.rest = [] ∧ m.captured
      = user.toList.map ("user", ·) ++ [("hostport", address), ("group", group)] := by
    rcases user with _ | u
    · have huser := ways_userPattern_of_notMem group (h.address_at rfl) h.address_slash
      simp [pattern, Pattern.ways, h.text, placed, huser, hplace, Pattern.extend]
    · have huser := ways_userPattern (address ++ '/' :: group) (h.user_at u rfl)
        (h.user_slash u rfl)
      simp [pattern, Pattern.ways, h.text, placed, huser, hplace, Pattern.extend]
  obtain ⟨m, others, hways, hrest, hcaptured⟩ := hways
  rw [Pattern.captures_of_ways hways hrest, hcaptured]

/-- Reading a locator by what its pattern captures. -/
def parseCaptures (raw : String) : Except LocatorError Locator :=
  let t := Text.trim raw.toList
  if t.any Text.isBlank then .error .invalidChar
  else if '/' ∈ t then
    match pattern.captures t with
    | none => .error .wrongHostPort
    | some captured =>
      readParts (captured.lookup "user") ((captured.lookup "hostport").getD [])
        ((captured.lookup "group").getD [])
  else if t = [] then .error .emptyGroup
  else .ok { group := .ofList t }

theorem parseCaptures_eq (raw : String) : parseCaptures raw = parse raw := by
  unfold parseCaptures
  by_cases hclean : Text.Clean (Text.trim raw.toList)
  · rw [if_neg (by simpa [Text.Clean] using hclean)]
    split_ifs with hslash hempty
    · obtain ⟨user, address, group, h⟩ := exists_parts hslash
      rw [parse_of_parts hclean h, h.captures hclean.newline_notMem]
      rcases user with _ | u <;> rfl
    · rw [parse_of_notMem hclean hslash, if_pos hempty]
    · rw [parse_of_notMem hclean hslash, if_neg hempty]
  · rw [parse_of_not_clean hclean, if_pos (by simpa [Text.Clean] using hclean)]

end Captures

/-- How the texts of locators are read. -/
structure Reads (raw : String) (t : List Char) : Prop where
  trims : Text.Trims raw.toList t
  accepted (l : Locator) : parse raw = .ok l ↔ Text.Clean t ∧ Spelling t l
  refused (e : LocatorError) : parse raw = .error e ↔ FirstFault t e
  captured : parse raw = parseCaptures raw
  matched : Text.Clean t → '/' ∈ t → pattern.captures t ≠ none

/-- A text is read, without the blanks at its ends, as the locator that it spells, and else refused
for the first check that it fails. The pattern of locators matches whatever it is tried on. -/
theorem parse_reads (raw : String) : Reads raw (Text.trim raw.toList) where
  trims := Text.trims_trim raw.toList
  accepted _ := parse_eq_ok_iff
  refused _ := parse_eq_error_iff
  captured := (parseCaptures_eq raw).symm
  matched hclean hslash := by
    obtain ⟨user, address, group, h⟩ := exists_parts hslash
    simp [h.captures hclean.newline_notMem]

end Locator

end EngineShell
