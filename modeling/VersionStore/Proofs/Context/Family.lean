import VersionStore.Proofs.Context.Genealogy

/-! Contexts as they are made.

A family holds the contexts that a run of operations made, with the tokens issued for them and
the time. It is `Traced` by the chronicle of the same run: a context's deadline is due from the
one it took over and the one it was given, and the numbers of its token are those of the token
it bears or is below. `moves` says once what an operation does to both sides, and
`traced_run` that every run is traced. -/
namespace VersionStore

/-- The contexts made so far, the first one first. -/
structure Family where
  made : List Context := []
  tokens : Tokens := {}
  now : Nat := 0
  deriving DecidableEq

namespace Family

def add (f : Family) (made : Context × Tokens) : Family :=
  {f with made := f.made ++ [made.1], tokens := made.2}

/-- The token that a context is to bear, if the context it comes from was made. -/
def bear? (f : Family) : Bearing → Option (Token × Tokens)
  | .new => some f.tokens.fresh
  | .sharing other => f.made[other]?.map (·.token, f.tokens)
  | .below other => f.made[other]?.map (f.tokens.child ·.token)

def step (f : Family) : ContextOp → Family
  | .background => f.add (Context.background f.tokens)
  | .withTimeout timeout => f.add (Context.withTimeout timeout f.now f.tokens)
  | .withDeadline instant => f.add (Context.withDeadline instant f.tokens)
  | .withCancellation bearing =>
    match f.bear? bearing with
    | some (token, tokens) => f.add (Context.withCancellation token, tokens)
    | none => f
  | .deadlineAt other instant =>
    match f.made[other]? with
    | some context => f.add (context.tighten instant, f.tokens)
    | none => f
  | .child other =>
    match f.made[other]? with
    | some context => f.add (context.child f.tokens)
    | none => f
  | .clone other =>
    match f.made[other]? with
    | some context => f.add (context, f.tokens)
    | none => f
  | .cancel other =>
    match f.made[other]? with
    | some context => {f with tokens := context.cancel f.tokens}
    | none => f
  | .sleep duration => {f with now := f.now + duration}

def run (ops : List ContextOp) : Family := ops.foldl step {}

/-- What a context's check says now. -/
def check? (f : Family) (x : Nat) : Option (Result Unit) :=
  f.made[x]?.map (·.check f.tokens f.now)

def deadline? (f : Family) (x : Nat) : Option Nat := f.made[x]?.bind (·.deadline)

/-- The deadline of a context that was made as told. -/
def due? (f : Family) (o : Origin) : Option Nat :=
  (o.heritage.bind f.deadline?).merge min o.given

/-- The numbers of a context's token and of those above it. -/
def lineage (f : Family) (x : Nat) : List Nat :=
  ((f.made[x]?).map (·.token.lineage)).getD []

/-! ### What an operation does -/

/-- The token of a context that bears it, and the tokens then issued. -/
inductive Bears (f : Family) : Bearing → Token → Tokens → Prop where
  | new : Bears f .new ⟨[f.tokens.issued]⟩ {f.tokens with issued := f.tokens.issued + 1}
  | sharing {y : Nat} {c : Context} : f.made[y]? = some c → Bears f (.sharing y) c.token f.tokens
  | below {y : Nat} {c : Context} : f.made[y]? = some c →
      Bears f (.below y) ⟨f.tokens.issued :: c.token.lineage⟩
        {f.tokens with issued := f.tokens.issued + 1}

theorem bears_of_bear? {f : Family} {b : Bearing} {token : Token} {tokens : Tokens}
    (h : f.bear? b = some (token, tokens)) : f.Bears b token tokens := by
  cases b with
  | new =>
    cases h
    exact .new
  | sharing =>
    obtain ⟨c, hc, h⟩ := Option.map_eq_some_iff.1 h
    cases h
    exact .sharing hc
  | below =>
    obtain ⟨c, hc, h⟩ := Option.map_eq_some_iff.1 h
    cases h
    exact .below hc

/-- What an operation does to a family and to its chronicle. -/
inductive Moves (f : Family) (k : Chronicle) : Family → Chronicle → Prop where
  | idle : Moves f k f k
  | slept (duration : Nat) :
      Moves f k {f with now := f.now + duration} {k with now := k.now + duration}
  | cancelled {y : Nat} {c : Context} : f.made[y]? = some c →
      Moves f k {f with tokens := f.tokens.cancel c.token} {k with cancelled := y :: k.cancelled}
  | made {o : Origin} {token : Token} {tokens : Tokens} :
      f.Bears o.bearing token tokens → (∀ y ∈ o.heritage, y < f.made.length) →
      Moves f k (f.add (⟨token, f.due? o⟩, tokens)) {k with genealogy := k.genealogy ++ [o]}

section Moves

variable {f : Family} {k : Chronicle} {o : Origin} {other : Nat}

theorem isSome_bear? {b : Bearing} :
    (f.bear? b).isSome ↔ ∀ y ∈ b.source?, y < f.made.length := by
  cases b <;> simp [bear?, Bearing.source?]

/-- A context is written down if it is made. -/
theorem moves_made {token : Token} {tokens : Tokens} (hlength : f.made.length = k.genealogy.length)
    (hbear : f.bear? o.bearing = some (token, tokens))
    (hheritage : ∀ y ∈ o.heritage, y ∈ o.bearing.source?) :
    Moves f k (f.add (⟨token, f.due? o⟩, tokens)) (k.add o) := by
  have hsource := isSome_bear?.1 (Option.isSome_of_eq_some hbear)
  have hadd : k.add o = {k with genealogy := k.genealogy ++ [o]} := by
    rw [Chronicle.add, if_pos (hlength ▸ hsource)]
  rw [hadd]
  exact .made (bears_of_bear? hbear) fun y hy => hsource y (hheritage y hy)

/-- A context that is not made is not written down either. -/
theorem moves_unmade (hlength : f.made.length = k.genealogy.length)
    (hbear : f.bear? o.bearing = none) : Moves f k f (k.add o) := by
  have hadd : k.add o = k := by
    rw [Chronicle.add, if_neg]
    rw [← hlength, ← isSome_bear?, hbear]
    simp
  rw [hadd]
  exact .idle

/-- A context made from another one. -/
theorem moves_derived (make : Context → Context × Tokens)
    (hlength : f.made.length = k.genealogy.length) (hsource : o.bearing.source? = some other)
    (hheritage : o.heritage = some other)
    (hmake : ∀ c, f.made[other]? = some c →
      f.bear? o.bearing = some ((make c).1.token, (make c).2) ∧ (make c).1.deadline = f.due? o) :
    Moves f k (match f.made[other]? with | some c => f.add (make c) | none => f) (k.add o) := by
  rcases hmade : f.made[other]? with _ | c
  · refine moves_unmade hlength (Option.not_isSome_iff_eq_none.1 fun hsome => ?_)
    have hlt := isSome_bear?.1 hsome other hsource
    have hge := List.getElem?_eq_none_iff.1 hmade
    omega
  · obtain ⟨hbear, hdue⟩ := hmake c hmade
    have hmade := moves_made hlength hbear (by simp [hheritage, hsource])
    rwa [← hdue] at hmade

theorem moves (hlength : f.made.length = k.genealogy.length) (hnow : f.now = k.now)
    (op : ContextOp) : Moves f k (f.step op) (k.step op) := by
  cases op with
  | background => exact moves_made (o := {bearing := .new}) hlength rfl (by simp)
  | withTimeout timeout =>
    simp only [Chronicle.step, ← hnow]
    exact moves_made (o := {bearing := .new, given := some (f.now + timeout)}) hlength rfl (by simp)
  | withDeadline instant =>
    exact moves_made (o := {bearing := .new, given := some instant}) hlength rfl (by simp)
  | withCancellation bearing =>
    rcases hbear : f.bear? bearing with _ | ⟨token, tokens⟩ <;> simp only [step, Chronicle.step, hbear]
    · exact moves_unmade hlength hbear
    · exact moves_made (o := {bearing}) hlength hbear (by simp)
  | deadlineAt other instant =>
    refine moves_derived (fun c => (c.tighten instant, f.tokens)) hlength rfl rfl fun c hc => ?_
    refine ⟨by simp [bear?, hc, Context.tighten], ?_⟩
    cases hdeadline : c.deadline <;> simp [Context.tighten, due?, deadline?, hc, hdeadline]
  | child other =>
    refine moves_derived (fun c => c.child f.tokens) hlength rfl rfl fun c hc => ?_
    exact ⟨by simp [bear?, hc, Context.child], by simp [Context.child, due?, deadline?, hc]⟩
  | clone other =>
    refine moves_derived (fun c => (c, f.tokens)) hlength rfl rfl fun c hc => ?_
    exact ⟨by simp [bear?, hc], by simp [due?, deadline?, hc]⟩
  | cancel other =>
    rcases hmade : f.made[other]? with _ | c <;> simp only [step, Chronicle.step, hmade]
    · rw [if_neg (by simp_all)]
      exact .idle
    · rw [if_pos (hlength ▸ (List.getElem?_eq_some_iff.1 hmade).1)]
      exact .cancelled hmade
  | sleep duration => exact .slept duration

end Moves

/-! ### What the numbers of the tokens say -/

/-- How the numbers of a context's token come from those of the one that it bears, or is below. -/
inductive Stem (f : Family) (x : Nat) : Bearing → Prop where
  | new {n : Nat} : n < f.tokens.issued → f.lineage x = [n] → Stem f x .new
  | sharing {y : Nat} : y < x → f.lineage x = f.lineage y → Stem f x (.sharing y)
  | below {y n : Nat} : y < x → n < f.tokens.issued → f.lineage x = n :: f.lineage y →
      Stem f x (.below y)

theorem Stem.grow {f f' : Family} {x : Nat} {b : Bearing} (h : f.Stem x b)
    (hissued : f.tokens.issued ≤ f'.tokens.issued)
    (hlineage : ∀ y, y ≤ x → f'.lineage y = f.lineage y) : f'.Stem x b := by
  cases h with
  | new hn hx => exact .new (hn.trans_le hissued) (hlineage x le_rfl ▸ hx)
  | sharing hy hx => exact .sharing hy (by rw [hlineage x le_rfl, hx, hlineage _ hy.le])
  | below hy hn hx =>
    exact .below hy (hn.trans_le hissued) (by rw [hlineage x le_rfl, hx, hlineage _ hy.le])

theorem Stem.exists_head? {f : Family} {x : Nat} {b : Bearing} (h : f.Stem x b)
    (hb : ∀ y, b ≠ .sharing y) : ∃ n < f.tokens.issued, (f.lineage x).head? = some n := by
  cases h with
  | new hn hx => exact ⟨_, hn, by rw [hx]; rfl⟩
  | sharing => exact absurd rfl (hb _)
  | below _ hn hx => exact ⟨_, hn, by rw [hx]; rfl⟩

/-- The family is as its chronicle tells. -/
structure Traced (f : Family) (k : Chronicle) : Prop where
  length : f.made.length = k.genealogy.length
  now : f.now = k.now
  heritage : ∀ {x y}, k.genealogy.Heir x y → y < x
  deadline : ∀ {x o}, k.genealogy[x]? = some o → f.deadline? x = f.due? o
  stem : ∀ {x b}, k.genealogy.bearing? x = some b → f.Stem x b
  /-- No number is issued twice. -/
  founder : ∀ {x y}, x < y → k.genealogy.Founds x → k.genealogy.Founds y →
    (f.lineage x).head? ≠ (f.lineage y).head?
  valid : ∀ y ∈ k.cancelled, y < f.made.length
  cancelled : ∀ n, n ∈ f.tokens.cancelled ↔ ∃ y ∈ k.cancelled, (f.lineage y).head? = some n

section Growth

variable {f : Family} {x : Nat} {c : Context × Tokens}

theorem lineage_add (hx : x < f.made.length) : (f.add c).lineage x = f.lineage x := by
  simp [lineage, add, List.getElem?_append_left hx]

theorem lineage_add_self : (f.add c).lineage f.made.length = c.1.token.lineage := by
  simp [lineage, add]

theorem deadline?_add (hx : x < f.made.length) : (f.add c).deadline? x = f.deadline? x := by
  simp [deadline?, add, List.getElem?_append_left hx]

theorem due?_add {o : Origin} (ho : ∀ y ∈ o.heritage, y < f.made.length) :
    (f.add c).due? o = f.due? o := by
  cases hheritage : o.heritage with
  | none => simp [due?, hheritage]
  | some y => simp [due?, hheritage, deadline?_add (ho y hheritage)]

variable {b : Bearing} {token : Token} {tokens : Tokens}

theorem Bears.issued_le (h : f.Bears b token tokens) : f.tokens.issued ≤ tokens.issued := by
  cases h with
  | new | below => exact Nat.le_succ _
  | sharing => exact le_rfl

theorem Bears.cancelled_eq (h : f.Bears b token tokens) :
    tokens.cancelled = f.tokens.cancelled := by
  cases h <;> rfl

/-- The last context that was made bears the token it was to bear. -/
theorem Bears.stem (h : f.Bears b token tokens) (deadline : Option Nat) :
    (f.add (⟨token, deadline⟩, tokens)).Stem f.made.length b := by
  have hself := lineage_add_self (f := f) (c := (⟨token, deadline⟩, tokens))
  cases h with
  | new => exact .new (Nat.lt_succ_self _) hself
  | sharing hc =>
    have hy := (List.getElem?_eq_some_iff.1 hc).1
    exact .sharing hy (by rw [hself, lineage_add hy]; simp [lineage, hc])
  | below hc =>
    have hy := (List.getElem?_eq_some_iff.1 hc).1
    exact .below hy (Nat.lt_succ_self _) (by rw [hself, lineage_add hy]; simp [lineage, hc])

theorem Bears.head? (h : f.Bears b token tokens) (hb : ∀ y, b ≠ .sharing y) :
    token.lineage.head? = some f.tokens.issued := by
  cases h with
  | new | below => rfl
  | sharing => exact absurd rfl (hb _)

end Growth

namespace Traced

variable {f : Family} {k : Chronicle}

theorem initial : Traced {} {} := by
  constructor <;> simp [Genealogy.Heir, Genealogy.bearing?, Genealogy.Founds]

theorem slept (h : Traced f k) (duration : Nat) :
    Traced {f with now := f.now + duration} {k with now := k.now + duration} where
  length := h.length
  now := congrArg (· + duration) h.now
  heritage := h.heritage
  deadline := h.deadline
  stem hb := (h.stem hb).grow le_rfl fun _ _ => rfl
  founder := h.founder
  valid := h.valid
  cancelled := h.cancelled

theorem cancel (h : Traced f k) {y : Nat} {c : Context} (hmade : f.made[y]? = some c) :
    Traced {f with tokens := f.tokens.cancel c.token} {k with cancelled := y :: k.cancelled} where
  length := h.length
  now := h.now
  heritage := h.heritage
  deadline := h.deadline
  stem hb := (h.stem hb).grow le_rfl fun _ _ => rfl
  founder := h.founder
  valid := List.forall_mem_cons.2 ⟨(List.getElem?_eq_some_iff.1 hmade).1, h.valid⟩
  cancelled n := by
    have hhead : n ∈ c.token.lineage.take 1 ↔ (f.lineage y).head? = some n := by
      cases hl : c.token.lineage <;> simp [lineage, hmade, hl, eq_comm]
    simp only [Tokens.cancel, List.mem_append, hhead, h.cancelled n, List.mem_cons, exists_eq_or_imp]
    rfl

theorem add (h : Traced f k) {o : Origin} {token : Token} {tokens : Tokens}
    (hbears : f.Bears o.bearing token tokens)
    (hheritage : ∀ y ∈ o.heritage, y < f.made.length) :
    Traced (f.add (⟨token, f.due? o⟩, tokens)) {k with genealogy := k.genealogy ++ [o]} where
  length := by simp [Family.add, h.length]
  now := h.now
  heritage := by
    rintro x y ⟨p, hp, hy⟩
    obtain ⟨-, hold⟩ | ⟨rfl, rfl⟩ := Genealogy.getElem?_concat hp
    · exact h.heritage ⟨p, hold, hy⟩
    · exact h.length ▸ hheritage y hy
  deadline := by
    intro x p hp
    obtain ⟨hlt, hold⟩ | ⟨rfl, rfl⟩ := Genealogy.getElem?_concat hp
    · rw [deadline?_add (h.length ▸ hlt), h.deadline hold, due?_add fun y hy => ?_]
      have hyx := h.heritage ⟨p, hold, hy⟩
      rw [h.length]
      omega
    · rw [due?_add hheritage, ← h.length]
      simp [deadline?, Family.add]
  stem := by
    intro x b hb
    obtain ⟨hlt, hold⟩ | ⟨rfl, rfl⟩ := Genealogy.bearing?_concat hb
    · refine (h.stem hold).grow hbears.issued_le fun y hy => lineage_add ?_
      rw [h.length]
      omega
    · exact h.length ▸ hbears.stem _
  founder := by
    rintro x y hxy ⟨b, hb, hx⟩ ⟨b', hb', hy⟩
    have hynew := Genealogy.bearing?_concat hb'
    -- the earlier of the two was there before
    obtain ⟨hxlt, hxold⟩ | ⟨rfl, -⟩ := Genealogy.bearing?_concat hb
    swap
    · omega
    rw [lineage_add (h.length ▸ hxlt)]
    obtain ⟨hylt, hyold⟩ | ⟨rfl, rfl⟩ := hynew
    · rw [lineage_add (h.length ▸ hylt)]
      exact h.founder hxy ⟨b, hxold, hx⟩ ⟨b', hyold, hy⟩
    · obtain ⟨n, hn, hhead⟩ := (h.stem hxold).exists_head? hx
      rw [hhead, ← h.length, lineage_add_self, hbears.head? hy]
      simp only [ne_eq, Option.some.injEq]
      omega
  valid y hy := by
    have hlt := h.valid y hy
    simp only [Family.add, List.length_append]
    omega
  cancelled n := by
    change n ∈ tokens.cancelled ↔ _
    rw [hbears.cancelled_eq, h.cancelled n]
    exact exists_congr fun y => and_congr_right fun hy => by rw [lineage_add (h.valid y hy)]

theorem of_moves {f' : Family} {k' : Chronicle} (h : Traced f k) (hmoves : Moves f k f' k') :
    Traced f' k' := by
  cases hmoves with
  | idle => exact h
  | slept duration => exact h.slept duration
  | cancelled hmade => exact h.cancel hmade
  | made hbears hheritage => exact h.add hbears hheritage

theorem run (h : Traced f k) (ops : List ContextOp) :
    Traced (ops.foldl Family.step f) (ops.foldl Chronicle.step k) := by
  induction ops generalizing f k with
  | nil => exact h
  | cons op ops ih => exact ih (h.of_moves (moves h.length h.now op))

end Traced

theorem traced_run (ops : List ContextOp) : Traced (run ops) (Chronicle.run ops) :=
  Traced.initial.run ops

end Family

end VersionStore
