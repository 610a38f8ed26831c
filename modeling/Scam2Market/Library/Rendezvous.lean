import Mathlib.Data.List.Induction
import Mathlib.Logic.Function.Basic
import Mathlib.Tactic.Common

/-!
# Two parties that post and then look

There are two boards.  A party posts a value under its key on one of them, and then looks at the left
board and at the right board under that key.  Parties take these steps in any order, and any number of
them may post the same.

* `Orderly s`: what holds of every reachable state: a party that has posted finds what it has posted,
  what is on a board was posted by a party, and of a left and a right party with one key not both have
  missed the other.
* `Orderly.acted`: a process of another system that acts as a party (`State.Acts`) keeps it so.
* `Orderly.meets`: of a left and a right party that have both looked twice, one has seen both values.
-/

namespace Scam2Market
namespace Library
namespace Rendezvous

variable {κ L R : Type*}

/-- What a party posts, on which board and under which key. -/
inductive Party (κ L R : Type*) where
  | left (key : κ) (value : L)
  | right (key : κ) (value : R)

/-- How far a party has come, and what it has seen. -/
inductive Phase (L R : Type*) where
  | entered
  | posted
  | looked (l : Option L)
  | met (l : Option L) (r : Option R)

structure State (κ L R : Type*) where
  lefts : κ → Option L
  rights : κ → Option R
  parties : List (Party κ L R × Phase L R)

def Party.key : Party κ L R → κ
  | left key _ => key
  | right key _ => key

def State.initial : State κ L R :=
  ⟨fun _ => none, fun _ => none, []⟩

section Steps

variable [DecidableEq κ]

/-- Put the value of a party on its board. -/
def State.post (s : State κ L R) : Party κ L R → State κ L R
  | .left key value => { s with lefts := Function.update s.lefts key (some value) }
  | .right key value => { s with rights := Function.update s.rights key (some value) }

/-- The next step of a party. -/
def State.advance (s : State κ L R) (index : ℕ) : State κ L R :=
  match s.parties[index]? with
  | some (party, .entered) =>
    { s.post party with parties := s.parties.set index (party, .posted) }
  | some (party, .posted) =>
    { s with parties := s.parties.set index (party, .looked (s.lefts party.key)) }
  | some (party, .looked l) =>
    { s with parties := s.parties.set index (party, .met l (s.rights party.key)) }
  | _ => s

end Steps

/-! ## What holds of every reachable state -/

/-- The board of a party has a value under its key. -/
def State.Has (s : State κ L R) : Party κ L R → Prop
  | .left key _ => s.lefts key ≠ none
  | .right key _ => s.rights key ≠ none

/-- What a party has seen of the left board, if it has looked. -/
def Phase.left? : Phase L R → Option (Option L)
  | looked l => some l
  | met l _ => some l
  | _ => none

/-- What a party has seen of the right board, if it has looked. -/
def Phase.right? : Phase L R → Option (Option R)
  | met _ r => some r
  | _ => none

/-- A party that has posted has not just entered. -/
def Phase.HasPosted : Phase L R → Prop
  | entered => False
  | _ => True

/-- A party stands in a state. -/
def State.At (s : State κ L R) (index : ℕ) (party : Party κ L R) (phase : Phase L R) : Prop :=
  s.parties[index]? = some (party, phase)

structure Orderly (s : State κ L R) : Prop where
  has : ∀ i party phase, s.At i party phase → phase.HasPosted → s.Has party
  ownLeft : ∀ i key value phase, s.At i (.left key value) phase → phase.left? ≠ some none
  ownRight : ∀ i key value phase, s.At i (.right key value) phase → phase.right? ≠ some none
  crossed : ∀ i j key value value' phase phase', s.At i (.left key value) phase →
    s.At j (.right key value') phase' → phase.right? = some none → phase'.left? ≠ some none
  lefts : ∀ key value, s.lefts key = some value → ∃ i phase, s.At i (.left key value) phase
  rights : ∀ key value, s.rights key = some value → ∃ i phase, s.At i (.right key value) phase
  sawLeft : ∀ i party phase value, s.At i party phase → phase.left? = some (some value) →
    ∃ j phase', s.At j (.left party.key value) phase'
  sawRight : ∀ i party phase value, s.At i party phase → phase.right? = some (some value) →
    ∃ j phase', s.At j (.right party.key value) phase'

theorem orderly_initial : Orderly (State.initial : State κ L R) where
  has i party phase h := absurd h (by simp [State.At, State.initial])
  ownLeft i key value phase h := absurd h (by simp [State.At, State.initial])
  ownRight i key value phase h := absurd h (by simp [State.At, State.initial])
  crossed i j key value value' phase phase' h := absurd h (by simp [State.At, State.initial])
  lefts key value h := absurd h (by simp [State.initial])
  rights key value h := absurd h (by simp [State.initial])
  sawLeft i party phase value h := absurd h (by simp [State.At, State.initial])
  sawRight i party phase value h := absurd h (by simp [State.At, State.initial])

/-! ## Processes of another system -/

/-- The boards, and the entries of a list as parties. -/
def State.of {ε : Type*} (lefts : κ → Option L) (rights : κ → Option R)
    (view : ε → Party κ L R × Phase L R) (entries : List ε) : State κ L R :=
  ⟨lefts, rights, entries.map view⟩

theorem at_of {ε : Type*} {lefts : κ → Option L} {rights : κ → Option R}
    {view : ε → Party κ L R × Phase L R} {entries : List ε} {index : ℕ} {party : Party κ L R}
    {phase : Phase L R} :
    (State.of lefts rights view entries).At index party phase ↔
      ∃ entry, entries[index]? = some entry ∧ view entry = (party, phase) := by
  show (entries.map view)[index]? = _ ↔ _
  rw [List.getElem?_map, Option.map_eq_some_iff]

/-! ## Steps -/

theorem hasPosted_of_left? {phase : Phase L R} {l : Option L} (h : phase.left? = some l) :
    phase.HasPosted := by
  cases phase with
  | entered => cases h
  | posted => trivial
  | looked l => trivial
  | met l r => trivial

theorem hasPosted_of_right? {phase : Phase L R} {r : Option R} (h : phase.right? = some r) :
    phase.HasPosted := by
  cases phase with
  | entered => cases h
  | posted => trivial
  | looked l => trivial
  | met l r => trivial

section Moved

variable {s s' : State κ L R} {i : ℕ} {party : Party κ L R} {phase phase' : Phase L R}

/-- One party has moved: the others stand where they stood. -/
theorem at_set (hset : s'.parties = s.parties.set i (party, phase')) {j : ℕ} {other : Party κ L R}
    {stand : Phase L R} (h : s'.At j other stand) :
    (j = i ∧ other = party ∧ stand = phase') ∨ s.At j other stand := by
  unfold State.At at h
  rw [hset, List.getElem?_set] at h
  split_ifs at h with hij hlt
  · obtain ⟨rfl, rfl⟩ := Prod.mk.inj (Option.some.inj h)
    exact Or.inl ⟨hij.symm, rfl, rfl⟩
  · exact Or.inr h

theorem at_set_of_at (hat : s.At i party phase)
    (hset : s'.parties = s.parties.set i (party, phase')) {j : ℕ} {other : Party κ L R}
    {stand : Phase L R} (h : s.At j other stand) : ∃ stand', s'.At j other stand' := by
  unfold State.At at *
  rw [hset]
  by_cases hij : i = j
  · subst hij
    obtain ⟨rfl, -⟩ := Prod.mk.inj (Option.some.inj (hat.symm.trans h))
    exact ⟨phase', List.getElem?_set_self (List.getElem?_eq_some_iff.mp hat).1⟩
  · exact ⟨stand, by rw [List.getElem?_set_ne hij, h]⟩

/-- A party that moves to a phase after it has posted, and looks at the boards as they are. -/
theorem Orderly.moved (h : Orderly s) (hat : s.At i party phase)
    (hset : s'.parties = s.parties.set i (party, phase'))
    (hhas : ∀ other, s.Has other → s'.Has other) (hself : s'.Has party)
    (hlefts : ∀ key value, s'.lefts key = some value →
      s.lefts key = some value ∨ party = .left key value)
    (hrights : ∀ key value, s'.rights key = some value →
      s.rights key = some value ∨ party = .right key value)
    (hleft : phase'.left? = phase.left? ∨
      (phase'.left? = some (s.lefts party.key) ∧ phase.HasPosted))
    (hright : phase'.right? = phase.right? ∨
      (phase'.right? = some (s.rights party.key) ∧ phase.HasPosted)) : Orderly s' := by
  have hself' : s'.At i party phase' := by
    unfold State.At
    rw [hset, List.getElem?_set_self (List.getElem?_eq_some_iff.mp hat).1]
  have hmono : ∀ {key value}, (∃ j stand, s.At j (.left key value) stand) →
      ∃ j stand, s'.At j (.left key value) stand := fun ⟨j, _, hj⟩ => ⟨j, at_set_of_at hat hset hj⟩
  have hmono' : ∀ {key value}, (∃ j stand, s.At j (.right key value) stand) →
      ∃ j stand, s'.At j (.right key value) stand := fun ⟨j, _, hj⟩ => ⟨j, at_set_of_at hat hset hj⟩
  constructor
  case has =>
    intro j other stand hj hposted
    rcases at_set hset hj with ⟨-, rfl, rfl⟩ | hj
    · exact hself
    · exact hhas other (h.has j other stand hj hposted)
  case ownLeft =>
    intro j key value stand hj
    rcases at_set hset hj with ⟨rfl, rfl, rfl⟩ | hj
    · rcases hleft with hleft | ⟨hleft, hposted⟩
      · rw [hleft]
        exact h.ownLeft j key value phase hat
      · rw [hleft]
        exact fun hnone => h.has j _ phase hat hposted (Option.some.inj hnone)
    · exact h.ownLeft j key value stand hj
  case ownRight =>
    intro j key value stand hj
    rcases at_set hset hj with ⟨rfl, rfl, rfl⟩ | hj
    · rcases hright with hright | ⟨hright, hposted⟩
      · rw [hright]
        exact h.ownRight j key value phase hat
      · rw [hright]
        exact fun hnone => h.has j _ phase hat hposted (Option.some.inj hnone)
    · exact h.ownRight j key value stand hj
  case crossed =>
    -- whoever looks and misses the other looks before the other has posted
    intro j k key value value' stand stand' hj hk hmissed hmissed'
    rcases at_set hset hj with ⟨rfl, rfl, rfl⟩ | hj
    · rcases at_set hset hk with ⟨-, hparty, -⟩ | hk
      · cases hparty
      · rcases hright with hright | ⟨hright, -⟩
        · exact h.crossed j k key value value' phase stand' hat hk (hright ▸ hmissed) hmissed'
        · have hempty : s.rights key = none := Option.some.inj (hright.symm.trans hmissed)
          exact h.has k _ stand' hk (hasPosted_of_left? hmissed') hempty
    · rcases at_set hset hk with ⟨rfl, rfl, rfl⟩ | hk
      · rcases hleft with hleft | ⟨hleft, -⟩
        · exact h.crossed j k key value value' stand phase hj hat hmissed (hleft ▸ hmissed')
        · have hempty : s.lefts key = none := Option.some.inj (hleft.symm.trans hmissed')
          exact h.has j _ stand hj (hasPosted_of_right? hmissed) hempty
      · exact h.crossed j k key value value' stand stand' hj hk hmissed hmissed'
  case lefts =>
    intro key value hvalue
    rcases hlefts key value hvalue with hold | rfl
    · exact hmono (h.lefts key value hold)
    · exact ⟨i, phase', hself'⟩
  case rights =>
    intro key value hvalue
    rcases hrights key value hvalue with hold | rfl
    · exact hmono' (h.rights key value hold)
    · exact ⟨i, phase', hself'⟩
  case sawLeft =>
    intro j other stand value hj hsaw
    rcases at_set hset hj with ⟨rfl, rfl, rfl⟩ | hj
    · rcases hleft with hleft | ⟨hleft, -⟩
      · exact hmono (h.sawLeft j other phase value hat (hleft ▸ hsaw))
      · exact hmono (h.lefts _ value (Option.some.inj (hleft.symm.trans hsaw)))
    · exact hmono (h.sawLeft j other stand value hj hsaw)
  case sawRight =>
    intro j other stand value hj hsaw
    rcases at_set hset hj with ⟨rfl, rfl, rfl⟩ | hj
    · rcases hright with hright | ⟨hright, -⟩
      · exact hmono' (h.sawRight j other phase value hat (hright ▸ hsaw))
      · exact hmono' (h.rights _ value (Option.some.inj (hright.symm.trans hsaw)))
    · exact hmono' (h.sawRight j other stand value hj hsaw)

/-- A party that enters has seen nothing. -/
theorem Orderly.entered (h : Orderly s) (party : Party κ L R) :
    Orderly { s with parties := s.parties ++ [(party, .entered)] } := by
  have hback : ∀ {j other stand},
      State.At { s with parties := s.parties ++ [(party, .entered)] } j other stand →
        stand = .entered ∨ s.At j other stand := by
    intro j other stand hj
    unfold State.At at hj
    rcases Nat.lt_or_ge j s.parties.length with hlt | hge
    · exact Or.inr (by rwa [List.getElem?_append_left hlt] at hj)
    · rw [List.getElem?_append_right hge] at hj
      have hmem := List.mem_of_getElem? hj
      exact Or.inl (Prod.mk.inj (List.mem_singleton.mp hmem)).2
  have hmono : ∀ {j other stand}, s.At j other stand →
      State.At { s with parties := s.parties ++ [(party, .entered)] } j other stand := by
    intro j other stand hj
    unfold State.At at *
    rw [List.getElem?_append_left (List.getElem?_eq_some_iff.mp hj).1, hj]
  constructor
  case has =>
    intro j other stand hj hposted
    rcases hback hj with rfl | hj
    · exact hposted.elim
    · exact h.has j other stand hj hposted
  case ownLeft =>
    intro j key value stand hj
    rcases hback hj with rfl | hj
    · exact fun hnone => by cases hnone
    · exact h.ownLeft j key value stand hj
  case ownRight =>
    intro j key value stand hj
    rcases hback hj with rfl | hj
    · exact fun hnone => by cases hnone
    · exact h.ownRight j key value stand hj
  case crossed =>
    intro j k key value value' stand stand' hj hk hmissed
    rcases hback hj with rfl | hj
    · cases hmissed
    · rcases hback hk with rfl | hk
      · exact fun hnone => by cases hnone
      · exact h.crossed j k key value value' stand stand' hj hk hmissed
  case lefts =>
    intro key value hvalue
    obtain ⟨j, stand, hj⟩ := h.lefts key value hvalue
    exact ⟨j, stand, hmono hj⟩
  case rights =>
    intro key value hvalue
    obtain ⟨j, stand, hj⟩ := h.rights key value hvalue
    exact ⟨j, stand, hmono hj⟩
  case sawLeft =>
    intro j other stand value hj hsaw
    rcases hback hj with rfl | hj
    · cases hsaw
    · obtain ⟨k, stand', hk⟩ := h.sawLeft j other stand value hj hsaw
      exact ⟨k, stand', hmono hk⟩
  case sawRight =>
    intro j other stand value hj hsaw
    rcases hback hj with rfl | hj
    · cases hsaw
    · obtain ⟨k, stand', hk⟩ := h.sawRight j other stand value hj hsaw
      exact ⟨k, stand', hmono hk⟩

end Moved

section Runs

variable [DecidableEq κ] {s : State κ L R}

/-- Posting fills a board and empties none. -/
theorem has_post (party : Party κ L R) {other : Party κ L R} (h : s.Has other) :
    (s.post party).Has other := by
  cases party with
  | left key value =>
    cases other with
    | left key' value' =>
      show Function.update s.lefts key (some value) key' ≠ none
      by_cases hkey : key' = key
      · subst hkey
        rw [Function.update_self]
        exact Option.some_ne_none value
      · rwa [Function.update_of_ne hkey]
    | right key' value' => exact h
  | right key value =>
    cases other with
    | left key' value' => exact h
    | right key' value' =>
      show Function.update s.rights key (some value) key' ≠ none
      by_cases hkey : key' = key
      · subst hkey
        rw [Function.update_self]
        exact Option.some_ne_none value
      · rwa [Function.update_of_ne hkey]

theorem has_post_self (s : State κ L R) (party : Party κ L R) : (s.post party).Has party := by
  cases party with
  | left key value =>
    show Function.update s.lefts key (some value) key ≠ none
    rw [Function.update_self]
    exact Option.some_ne_none value
  | right key value =>
    show Function.update s.rights key (some value) key ≠ none
    rw [Function.update_self]
    exact Option.some_ne_none value

theorem lefts_post (party : Party κ L R) {key : κ} {value : L}
    (h : (s.post party).lefts key = some value) :
    s.lefts key = some value ∨ party = .left key value := by
  cases party with
  | left key' value' =>
    have h : Function.update s.lefts key' (some value') key = some value := h
    by_cases hkey : key = key'
    · subst hkey
      rw [Function.update_self] at h
      exact Or.inr (by rw [Option.some.inj h])
    · rw [Function.update_of_ne hkey] at h
      exact Or.inl h
  | right key' value' => exact Or.inl h

theorem rights_post (party : Party κ L R) {key : κ} {value : R}
    (h : (s.post party).rights key = some value) :
    s.rights key = some value ∨ party = .right key value := by
  cases party with
  | left key' value' => exact Or.inl h
  | right key' value' =>
    have h : Function.update s.rights key' (some value') key = some value := h
    by_cases hkey : key = key'
    · subst hkey
      rw [Function.update_self] at h
      exact Or.inr (by rw [Option.some.inj h])
    · rw [Function.update_of_ne hkey] at h
      exact Or.inl h

theorem Orderly.advance (h : Orderly s) (index : ℕ) : Orderly (s.advance index) := by
  unfold State.advance
  split
  case h_1 party hat =>
    exact h.moved hat rfl (fun _ => has_post party) (has_post_self s party)
      (fun _ _ => lefts_post party) (fun _ _ => rights_post party) (Or.inl rfl) (Or.inl rfl)
  case h_2 party hat =>
    exact h.moved hat rfl (fun _ => id) (h.has index party _ hat trivial) (fun _ _ => Or.inl)
      (fun _ _ => Or.inl) (Or.inr ⟨rfl, trivial⟩) (Or.inl rfl)
  case h_3 party l hat =>
    exact h.moved hat rfl (fun _ => id) (h.has index party _ hat trivial) (fun _ _ => Or.inl)
      (fun _ _ => Or.inl) (Or.inl rfl) (Or.inr ⟨rfl, trivial⟩)
  case h_4 => exact h

/-- What a process does that comes to a phase as a party, or stays in one: it posts, or it looks, or it
leaves the boards alone. -/
def State.Acts (s s' : State κ L R) (party : Party κ L R) (phase phase' : Phase L R) : Prop :=
  (phase = .entered ∧ phase' = .posted ∧ s'.lefts = (s.post party).lefts ∧
      s'.rights = (s.post party).rights) ∨
    (s'.lefts = s.lefts ∧ s'.rights = s.rights ∧
      (phase' = phase ∨ (phase = .posted ∧ phase' = .looked (s.lefts party.key)) ∨
        ∃ l, phase = .looked l ∧ phase' = .met l (s.rights party.key)))

/-- A process that acts as a party keeps the order. -/
theorem Orderly.acted (h : Orderly s) {s' : State κ L R} {i : ℕ} {party : Party κ L R}
    {phase phase' : Phase L R} (hat : s.At i party phase) (hacts : s.Acts s' party phase phase')
    (hset : s'.parties = s.parties.set i (party, phase')) : Orderly s' := by
  have hself : s.parties.set i (party, phase) = s.parties := by
    obtain ⟨hlt, hget⟩ := List.getElem?_eq_some_iff.mp hat
    rw [← hget, List.set_getElem_self]
  obtain ⟨lefts, rights, parties⟩ := s'
  obtain rfl : parties = s.parties.set i (party, phase') := hset
  rcases hacts with ⟨hphase, rfl, hlefts, hrights⟩ | ⟨hlefts, hrights, hstep⟩
  · obtain rfl : lefts = (s.post party).lefts := hlefts
    obtain rfl : rights = (s.post party).rights := hrights
    have hadvance := h.advance i
    unfold State.advance at hadvance
    rw [hat, hphase] at hadvance
    exact hadvance
  · obtain rfl : lefts = s.lefts := hlefts
    obtain rfl : rights = s.rights := hrights
    rcases hstep with rfl | ⟨hphase, rfl⟩ | ⟨l, hphase, rfl⟩
    · rw [hself]
      exact h
    · have hadvance := h.advance i
      unfold State.advance at hadvance
      rw [hat, hphase] at hadvance
      exact hadvance
    · have hadvance := h.advance i
      unfold State.advance at hadvance
      rw [hat, hphase] at hadvance
      exact hadvance

end Runs

/-- **Meeting.**  Of a left and a right party that are through, one has seen both boards filled. -/
theorem Orderly.meets {s : State κ L R} (h : Orderly s) {i j : ℕ} {key : κ} {value : L} {value' : R}
    {l l' : Option L} {r r' : Option R} (hleft : s.At i (.left key value) (.met l r))
    (hright : s.At j (.right key value') (.met l' r')) :
    (l ≠ none ∧ r ≠ none) ∨ (l' ≠ none ∧ r' ≠ none) := by
  have hl : l ≠ none := fun hnone => h.ownLeft i key value _ hleft (congrArg some hnone)
  have hr' : r' ≠ none := fun hnone => h.ownRight j key value' _ hright (congrArg some hnone)
  by_cases hr : r = none
  · refine Or.inr ⟨fun hnone => ?_, hr'⟩
    exact h.crossed i j key value value' _ _ hleft hright (congrArg some hr) (congrArg some hnone)
  · exact Or.inl ⟨hl, hr⟩

end Rendezvous
end Library
end Scam2Market
