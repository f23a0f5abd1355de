import VersionStore.Proofs.Threads.Step

/-! Runs in which calls go on at once.

All that a search depends on are the time, the settings and the documents (`View`). Between the
answer to a search and what its call makes of it other calls may move; if no time passes
there (`isPrompt`), the call makes of it what it would have made of it at that very time. -/
namespace VersionStore

/-- What there is for a search to see. -/
structure View where
  now : Nat
  config : StoreConfig
  documents : String → List Json.Value

/-- Whether a search for what a read asks for gives a record. -/
def View.Finds (v : View) (read : LatestRead) (r : Record) : Prop :=
  decodeAll (read.query.select (v.documents (read.key.scope.indexName v.config.suffix))) = .ok [r]

/-- Whether a call has got an answer and not gone on with it. -/
def Stage.isAnswered : Stage → Bool
  | .answered .. => true
  | _ => false

namespace Threads

def view (t : Threads) : View := ⟨t.now, t.store.config, t.engine.documents⟩

/-- Whether a move may be made here if calls go on with their answers at once: time does not pass
while an answer is in hand. -/
def mayPass (t : Threads) : Move → Bool
  | .advance _ => t.calls.all (!·.stage.isAnswered)
  | _ => true

/-- Whether calls go on with their answers at once. What comes between a search and the keeping
of what it found takes no time, whatever other calls do meanwhile. -/
def isPrompt (t : Threads) : List Move → Bool
  | [] => true
  | move :: rest => t.mayPass move && (t.step move).isPrompt rest

/-- Whether a search sees nothing in a run, from its start to its end, but what there is to see at
some moments. -/
def Shows (moments : View → Prop) (t : Threads) : List Move → Prop
  | [] => moments t.view
  | move :: rest => moments t.view ∧ (t.step move).Shows moments rest

variable {moments : View → Prop} {t : Threads}

theorem isPrompt_append {before after : List Move} :
    t.isPrompt (before ++ after) = true ↔
      t.isPrompt before = true ∧ (t.run before).isPrompt after = true := by
  induction before generalizing t with
  | nil => simp [isPrompt, run]
  | cons move rest ih => simp [isPrompt, run, ih, and_assoc]

namespace Shows

theorem first {moves : List Move} (h : t.Shows moments moves) : moments t.view := by
  cases moves with
  | nil => exact h
  | cons => exact h.1

theorem mono {later : View → Prop} (hmono : ∀ v, moments v → later v) {moves : List Move}
    (h : t.Shows moments moves) : t.Shows later moves := by
  induction moves generalizing t with
  | nil => exact hmono _ h
  | cons move rest ih => exact ⟨hmono _ h.1, ih h.2⟩

theorem append {before after : List Move} (h : t.Shows moments before)
    (h' : (t.run before).Shows moments after) : t.Shows moments (before ++ after) := by
  induction before generalizing t with
  | nil => exact h'
  | cons move rest ih => exact ⟨h.1, ih h.2 h'⟩

/-- A part of a run shows no more than the whole. -/
theorem of_append {before after : List Move} (h : t.Shows moments (before ++ after)) :
    t.Shows moments before ∧ (t.run before).Shows moments after := by
  induction before generalizing t with
  | nil => exact ⟨first h, h⟩
  | cons move rest ih =>
    obtain ⟨hrest, hafter⟩ := ih h.2
    exact ⟨⟨h.1, hrest⟩, hafter⟩

end Shows

end Threads

end VersionStore
