import VersionStore.Context
import Mathlib.Logic.Relation
import Mathlib.Order.Bounds.Basic

/-! Where contexts come from.

Contexts form a growing forest. A copy bears the token of the context it was made from and
may be given a deadline of its own; a child takes over the deadline and bears a new token
below that one. A chronicle writes down, operation by operation, which context bears whose
token, whose deadline it took over and which one it was given, and which contexts were
cancelled. It issues no tokens and computes no deadlines, so what it says of a context can be
held against what the context does (`Proofs/Context/Family`). -/
namespace VersionStore

/-- Whose token a context bears: a new one, that of an earlier context, or a child of that. -/
inductive Bearing where
  | new
  | sharing (other : Nat)
  | below (other : Nat)
  deriving DecidableEq

/-- The context whose token it is, or is below. -/
def Bearing.source? : Bearing → Option Nat
  | new => none
  | sharing other | below other => some other

/-- What is done with contexts, each of which goes by how many were made before it. A token
that a caller holds is that of a context which nothing else looks at. -/
inductive ContextOp where
  | background
  | withTimeout (timeout : Nat)
  | withDeadline (instant : Nat)
  | withCancellation (bearing : Bearing)
  | deadlineAt (other instant : Nat)
  | child (other : Nat)
  | clone (other : Nat)
  | cancel (other : Nat)
  | sleep (duration : Nat)
  deriving DecidableEq

/-- How a context was made. -/
structure Origin where
  bearing : Bearing
  /-- The context whose deadline it took over. -/
  heritage : Option Nat := none
  /-- The deadline that was given to it. -/
  given : Option Nat := none
  deriving DecidableEq

/-- How each context was made, the first one first. -/
abbrev Genealogy := List Origin

/-- A genealogy, the contexts that were cancelled, and the time it is. -/
structure Chronicle where
  genealogy : Genealogy := []
  cancelled : List Nat := []
  now : Nat := 0
  deriving DecidableEq

namespace Chronicle

/-- Writes down a context, if what it comes from was made. -/
def add (k : Chronicle) (o : Origin) : Chronicle :=
  if ∀ y ∈ o.bearing.source?, y < k.genealogy.length then {k with genealogy := k.genealogy ++ [o]}
  else k

def step (k : Chronicle) : ContextOp → Chronicle
  | .background => k.add {bearing := .new}
  | .withTimeout timeout => k.add {bearing := .new, given := some (k.now + timeout)}
  | .withDeadline instant => k.add {bearing := .new, given := some instant}
  | .withCancellation bearing => k.add {bearing}
  | .deadlineAt other instant =>
    k.add {bearing := .sharing other, heritage := some other, given := some instant}
  | .child other => k.add {bearing := .below other, heritage := some other}
  | .clone other => k.add {bearing := .sharing other, heritage := some other}
  | .cancel other =>
    if other < k.genealogy.length then {k with cancelled := other :: k.cancelled} else k
  | .sleep duration => {k with now := k.now + duration}

def run (ops : List ContextOp) : Chronicle := ops.foldl step {}

theorem run_append (ops more : List ContextOp) : run (ops ++ more) = more.foldl step (run ops) :=
  List.foldl_append

/-- The two differ at most by a cancel of one context. -/
structure AlikeBut (y : Nat) (k l : Chronicle) : Prop where
  genealogy : k.genealogy = l.genealogy
  now : k.now = l.now
  cancelled : ∀ z, z ≠ y → (z ∈ k.cancelled ↔ z ∈ l.cancelled)

theorem alikeBut_cancel (k : Chronicle) (y : Nat) : AlikeBut y k (k.step (.cancel y)) := by
  simp only [step]
  split
  · exact ⟨rfl, rfl, fun z hz => by simp [hz]⟩
  · exact ⟨rfl, rfl, fun _ _ => .rfl⟩

namespace AlikeBut

variable {y : Nat} {k l : Chronicle}

theorem add (h : AlikeBut y k l) (o : Origin) : AlikeBut y (k.add o) (l.add o) := by
  simp only [Chronicle.add, h.genealogy]
  split
  · exact ⟨rfl, h.now, h.cancelled⟩
  · exact h

theorem step (h : AlikeBut y k l) (op : ContextOp) : AlikeBut y (k.step op) (l.step op) := by
  cases op <;> simp only [Chronicle.step, h.now]
  case cancel x =>
    rw [h.genealogy]
    split
    · exact ⟨rfl, rfl, fun z hz => by simp [h.cancelled z hz]⟩
    · exact h
  case sleep => exact ⟨h.genealogy, rfl, h.cancelled⟩
  all_goals exact h.add _

theorem run (h : AlikeBut y k l) (ops : List ContextOp) :
    AlikeBut y (ops.foldl Chronicle.step k) (ops.foldl Chronicle.step l) := by
  induction ops generalizing k l with
  | nil => exact h
  | cons op ops ih => exact ih (h.step op)

end AlikeBut

/-- A history with the cancel of a context, and without. -/
theorem alikeBut_run (before after : List ContextOp) (y : Nat) :
    AlikeBut y (run (before ++ after)) (run (before ++ .cancel y :: after)) := by
  rw [run_append, run_append]
  exact (alikeBut_cancel _ y).run after

end Chronicle

namespace Genealogy

variable {g : Genealogy} {x y z d : Nat}

def bearing? (g : Genealogy) (x : Nat) : Option Bearing := g[x]?.map (·.bearing)

/-- A context that came along with the last origin, or before. -/
theorem getElem?_concat {o p : Origin} (h : (g ++ [o])[x]? = some p) :
    x < g.length ∧ g[x]? = some p ∨ x = g.length ∧ p = o := by
  rw [List.getElem?_append] at h
  split at h
  case isTrue hlt => exact .inl ⟨hlt, h⟩
  case isFalse hge =>
    rw [List.getElem?_singleton] at h
    split at h <;> cases h
    exact .inr ⟨by omega, rfl⟩

theorem bearing?_concat {o : Origin} {b : Bearing}
    (h : bearing? (g ++ [o]) x = some b) :
    x < g.length ∧ g.bearing? x = some b ∨ x = g.length ∧ b = o.bearing := by
  obtain ⟨p, hp, rfl⟩ := Option.map_eq_some_iff.1 h
  obtain ⟨hlt, hold⟩ | ⟨hx, rfl⟩ := getElem?_concat hp
  · exact .inl ⟨hlt, by simp [bearing?, hold]⟩
  · exact .inr ⟨hx, rfl⟩

/-! ### Deadlines -/

/-- The first took over the deadline of the second. -/
def Heir (g : Genealogy) (x y : Nat) : Prop := ∃ o, g[x]? = some o ∧ o.heritage = some y

/-- A deadline that was given to a context, or to one whose deadline it took over. -/
inductive Given (g : Genealogy) : Nat → Nat → Prop where
  | own {x d : Nat} {o : Origin} : g[x]? = some o → o.given = some d → Given g x d
  | inherited {x y d : Nat} : Heir g x y → Given g y d → Given g x d

/-- The first was derived from the second by copies, further deadlines and children. -/
def Derived (g : Genealogy) : Nat → Nat → Prop := Relation.ReflTransGen g.Heir

theorem Given.of_derived (hd : g.Given y d) (h : g.Derived x y) : g.Given x d := by
  induction h using Relation.ReflTransGen.head_induction_on with
  | refl => exact hd
  | head hheir _ ih => exact .inherited hheir ih

/-! ### Tokens -/

/-- The context's token was issued for it. -/
def Founds (g : Genealogy) (x : Nat) : Prop :=
  ∃ b, g.bearing? x = some b ∧ ∀ y, b ≠ .sharing y

/-- The two bear the same token. -/
def Shares (g : Genealogy) : Nat → Nat → Prop :=
  Relation.EqvGen fun x y => g.bearing? x = some (.sharing y)

/-- The token of the second was made as a child of that of the first. -/
def Parent (g : Genealogy) (p x : Nat) : Prop :=
  ∃ a b, g.bearing? a = some (.below b) ∧ g.Shares a x ∧ g.Shares p b

def Ancestor (g : Genealogy) : Nat → Nat → Prop := Relation.TransGen g.Parent

/-- The contexts that a cancel of the first is meant for: those that bear its token, itself
among them, and those below. -/
def Ends (g : Genealogy) (y x : Nat) : Prop := g.Shares y x ∨ g.Ancestor y x

/-- Different children of one parent. -/
def Siblings (g : Genealogy) (x y : Nat) : Prop :=
  ¬ g.Shares x y ∧ ∃ p, g.Parent p x ∧ g.Parent p y

/-- The token of the first is that of the second, or a child of it. -/
def MadeFrom (g : Genealogy) (x y : Nat) : Prop := (g.bearing? x).bind (·.source?) = some y

/-- There is a context that both come from. -/
def Kin (g : Genealogy) : Nat → Nat → Prop := Relation.Join (Relation.ReflTransGen g.MadeFrom)

/-- The two were derived independently. -/
def Independent (g : Genealogy) (x y : Nat) : Prop := ¬ g.Kin x y

/-- A context is made from one other at most, so what two come from is on one line. -/
theorem kin_equivalence (g : Genealogy) : Equivalence g.Kin :=
  Relation.equivalence_join_reflTransGen fun _ y z hy hz =>
    have hyz : y = z := Option.some.inj (hy.symm.trans hz)
    ⟨y, .refl, hyz ▸ .refl⟩

theorem MadeFrom.kin (h : g.MadeFrom x y) : g.Kin x y := ⟨y, .single h, .refl⟩

theorem Shares.kin (h : g.Shares x y) : g.Kin x y := by
  refine (kin_equivalence g).eqvGen_iff.1 (Relation.EqvGen.mono (fun x y hxy => ?_) _ _ h)
  exact MadeFrom.kin (by simp [MadeFrom, hxy, Bearing.source?])

theorem Parent.kin (h : g.Parent x y) : g.Kin x y := by
  obtain ⟨a, b, hab, hay, hxb⟩ := h
  have hkin : g.Kin a b := MadeFrom.kin (by simp [MadeFrom, hab, Bearing.source?])
  have heq := kin_equivalence g
  exact heq.trans hxb.kin (heq.trans (heq.symm hkin) hay.kin)

/-- What ends a context ends its children. -/
theorem Ends.below (h : g.Ends y x) (hparent : g.Parent x z) : g.Ends y z := by
  obtain hshares | hancestor := h
  · obtain ⟨a, b, hab, haz, hxb⟩ := hparent
    exact .inr (.single ⟨a, b, hab, haz, hshares.trans _ _ _ hxb⟩)
  · exact .inr (hancestor.tail hparent)

/-- A cancel stays within the kin. -/
theorem Ends.kin (h : g.Ends y x) : g.Kin y x := by
  obtain hshares | hancestor := h
  · exact hshares.kin
  · induction hancestor with
    | single hparent => exact hparent.kin
    | tail _ hparent ih => exact (kin_equivalence g).trans ih hparent.kin

end Genealogy

end VersionStore
