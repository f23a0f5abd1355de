import VersionStore.Json.Tree
import VersionStore.Proofs.Json.Scanning

/-! The grammar of JSON text.

`Tree.SpelledBy` is the grammar: which texts spell which trees. A text is read as a tree
exactly if it spells that tree (`Tree.parse?_eq_some_iff`).

To see that nothing else is read, follow the stack. In each state of the machine there is
something that the rest of the text has to spell for a tree to come of it
(`State.Demands`). A step that reads a token hands the demand on (`demands_of_step?`), so a
run that ends with a tree started where its whole text was demanded. -/
namespace VersionStore.Json

namespace Tree

/-! ### The grammar -/

/-- Whether a text spells the key of a member. -/
inductive Key : List Piece → List Char → Prop
  | padded {key : List Piece} {before inner after : List Char} (hbefore : IsBlankText before)
    (h : Piece.SpellEach key inner) (hafter : IsBlankText after) :
    Key key (before ++ ('"' :: inner ++ ['"']) ++ after)

mutual

/-- Whether a text spells a tree without blanks around it. -/
inductive Core : Tree → List Char → Prop
  | null : Core .null ['n', 'u', 'l', 'l']
  | yes : Core (.boolean true) ['t', 'r', 'u', 'e']
  | no : Core (.boolean false) ['f', 'a', 'l', 's', 'e']
  | numeral {n : Numeral} {cs : List Char} (h : n.SpelledBy cs) : Core (.numeral n) cs
  | string {pieces : List Piece} {inner : List Char} (h : Piece.SpellEach pieces inner) :
    Core (.string pieces) ('"' :: inner ++ ['"'])
  | emptyArray {blanks : List Char} (h : IsBlankText blanks) :
    Core (.array []) ('[' :: blanks ++ [']'])
  | array {item : Tree} {items : List Tree} {first rest : List Char} (hitem : SpelledBy item first)
    (hitems : Items items rest) : Core (.array (item :: items)) ('[' :: first ++ rest ++ [']'])
  | emptyObject {blanks : List Char} (h : IsBlankText blanks) :
    Core (.object []) ('\x7b' :: blanks ++ ['\x7d'])
  | object {key : List Piece} {tree : Tree} {members : List (List Piece × Tree)}
    {name first rest : List Char} (hkey : Key key name) (htree : SpelledBy tree first)
    (hmembers : Members members rest) :
    Core (.object ((key, tree) :: members)) ('\x7b' :: name ++ ':' :: first ++ rest ++ ['\x7d'])

/-- Whether a text spells a tree. -/
inductive SpelledBy : Tree → List Char → Prop
  | padded {tree : Tree} {before core after : List Char} (hbefore : IsBlankText before)
    (hcore : Core tree core) (hafter : IsBlankText after) :
    SpelledBy tree (before ++ core ++ after)

/-- Whether a text spells the further items of an array. -/
inductive Items : List Tree → List Char → Prop
  | nil : Items [] []
  | cons {item : Tree} {items : List Tree} {first rest : List Char} (hitem : SpelledBy item first)
    (hitems : Items items rest) : Items (item :: items) (',' :: first ++ rest)

/-- Whether a text spells the further members of an object. -/
inductive Members : List (List Piece × Tree) → List Char → Prop
  | nil : Members [] []
  | cons {key : List Piece} {tree : Tree} {members : List (List Piece × Tree)}
    {name first rest : List Char} (hkey : Key key name) (htree : SpelledBy tree first)
    (hmembers : Members members rest) :
    Members ((key, tree) :: members) (',' :: name ++ ':' :: first ++ rest)

end

namespace SpelledBy

variable {tree : Tree} {text : List Char}

theorem of_core (h : Core tree text) : SpelledBy tree text := by
  have hpadded := SpelledBy.padded isBlankText_nil h isBlankText_nil
  rwa [List.nil_append, List.append_nil] at hpadded

theorem prepend {blanks : List Char} (hblanks : IsBlankText blanks) (h : SpelledBy tree text) :
    SpelledBy tree (blanks ++ text) := by
  obtain ⟨hbefore, hcore, hafter⟩ := h
  rw [← List.append_assoc, ← List.append_assoc]
  exact .padded (isBlankText_append hblanks hbefore) hcore hafter

theorem append {blanks : List Char} (h : SpelledBy tree text) (hblanks : IsBlankText blanks) :
    SpelledBy tree (text ++ blanks) := by
  obtain ⟨hbefore, hcore, hafter⟩ := h
  rw [List.append_assoc]
  exact .padded hbefore hcore (isBlankText_append hafter hblanks)

end SpelledBy

theorem Key.prepend {key : List Piece} {text blanks : List Char} (hblanks : IsBlankText blanks)
    (h : Key key text) : Key key (blanks ++ text) := by
  obtain ⟨hbefore, hkey, hafter⟩ := h
  rw [← List.append_assoc, ← List.append_assoc]
  exact .padded (isBlankText_append hblanks hbefore) hkey hafter

/-! ### What a stack demands -/

/-- What is demanded behind an item of an array: its further items and its end, and what the array
then has to be followed by. -/
def AfterItem (closes : Tree → List Char → Prop) (items : List Tree) (text : List Char) : Prop :=
  ∃ more blanks tail rest, text = blanks ++ (tail ++ ']' :: rest) ∧ IsBlankText blanks ∧
    Items more tail ∧ closes (.array (items.reverse ++ more)) rest

/-- What is demanded behind a member of an object. -/
def AfterMember (closes : Tree → List Char → Prop) (members : List (List Piece × Tree))
    (text : List Char) : Prop :=
  ∃ more blanks tail rest, text = blanks ++ (tail ++ '\x7d' :: rest) ∧ IsBlankText blanks ∧
    Members more tail ∧ closes (.object (members.reverse ++ more)) rest

section
variable (result : Tree)

/-- What a stack demands behind a complete tree, for a result. -/
def Closes : List Frame → Tree → List Char → Prop
  | [], tree, text => IsBlankText text ∧ tree = result
  | .array items :: stack, tree, text => AfterItem (Closes stack) (tree :: items) text
  | .member members key :: stack, tree, text =>
    AfterMember (Closes stack) ((key, tree) :: members) text

/-- What a stack demands where a value begins. -/
def Starts (stack : List Frame) (text : List Char) : Prop :=
  ∃ tree first rest, text = first ++ rest ∧ SpelledBy tree first ∧ Closes result stack tree rest

/-- What is demanded in a state. -/
def State.Demands : State → List Char → Prop
  | .value stack, text => Starts result stack text
  | .firstItem stack, text =>
    (∃ blanks rest, text = blanks ++ ']' :: rest ∧ IsBlankText blanks ∧
      Closes result stack (.array []) rest) ∨ Starts result (.array [] :: stack) text
  | .key members stack, text =>
    (members = [] ∧ ∃ blanks rest, text = blanks ++ '\x7d' :: rest ∧ IsBlankText blanks ∧
      Closes result stack (.object []) rest) ∨
    ∃ name spelling rest, text = spelling ++ ':' :: rest ∧ Key name spelling ∧
      Starts result (.member members name :: stack) rest
  | .colon members name stack, text => ∃ blanks rest, text = blanks ++ ':' :: rest ∧
    IsBlankText blanks ∧ Starts result (.member members name :: stack) rest
  | .afterItem items stack, text => AfterItem (Closes result stack) items text
  | .afterMember members stack, text =>
    members ≠ [] → AfterMember (Closes result stack) members text
  | .finished tree, text => IsBlankText text ∧ tree = result

end

section
variable {result : Tree} {text : List Char}

theorem demands_deliver {tree : Tree} {stack : List Frame} :
    (deliver tree stack).Demands result text ↔ Closes result stack tree text := by
  rcases stack with _ | ⟨items | ⟨members, key⟩, stack⟩
  · exact Iff.rfl
  · exact Iff.rfl
  · exact ⟨fun h => h (List.cons_ne_nil _ _), fun h _ => h⟩

/-- Blanks in front make no difference to a demand. -/
theorem State.Demands.prepend {state : State} {blanks : List Char} (hblanks : IsBlankText blanks)
    (h : state.Demands result text) : state.Demands result (blanks ++ text) := by
  have hstarts : ∀ {stack}, Starts result stack text → Starts result stack (blanks ++ text) := by
    rintro stack ⟨tree, first, rest, rfl, htree, hrest⟩
    exact ⟨tree, blanks ++ first, rest, (List.append_assoc ..).symm, htree.prepend hblanks, hrest⟩
  cases state with
  | value stack => exact hstarts h
  | firstItem stack =>
    refine h.imp ?_ hstarts
    rintro ⟨before, rest, rfl, hbefore, hrest⟩
    exact ⟨blanks ++ before, rest, (List.append_assoc ..).symm,
      isBlankText_append hblanks hbefore, hrest⟩
  | key members stack =>
    refine h.imp ?_ ?_
    · rintro ⟨hnil, before, rest, rfl, hbefore, hrest⟩
      exact ⟨hnil, blanks ++ before, rest, (List.append_assoc ..).symm,
        isBlankText_append hblanks hbefore, hrest⟩
    · rintro ⟨key, name, rest, rfl, hkey, hrest⟩
      exact ⟨key, blanks ++ name, rest, (List.append_assoc ..).symm, hkey.prepend hblanks, hrest⟩
  | colon members key stack =>
    obtain ⟨before, rest, rfl, hbefore, hrest⟩ := h
    exact ⟨blanks ++ before, rest, (List.append_assoc ..).symm,
      isBlankText_append hblanks hbefore, hrest⟩
  | afterItem items stack =>
    obtain ⟨more, before, tail, rest, rfl, hbefore, hrest⟩ := h
    exact ⟨more, blanks ++ before, tail, rest, (List.append_assoc ..).symm,
      isBlankText_append hblanks hbefore, hrest⟩
  | afterMember members stack =>
    intro hmembers
    obtain ⟨more, before, tail, rest, rfl, hbefore, hrest⟩ := h hmembers
    exact ⟨more, blanks ++ before, tail, rest, (List.append_assoc ..).symm,
      isBlankText_append hblanks hbefore, hrest⟩
  | finished tree => exact ⟨isBlankText_append hblanks h.1, h.2⟩

/-! ### Steps -/

/-- A word is the whole of a tree. -/
theorem core_of_ofWord? {chars : List Char} {tree : Tree} (h : ofWord? chars = some tree) :
    Core tree chars := by
  unfold ofWord? at h
  split at h
  · next hnull =>
    cases h
    exact hnull ▸ .null
  split at h
  · next hyes =>
    cases h
    exact hyes ▸ .yes
  split at h
  · next hno =>
    cases h
    exact hno ▸ .no
  · obtain ⟨n, hparse, rfl⟩ := Option.map_eq_some_iff.mp h
    exact .numeral (Numeral.parse?_eq_some_iff.mp hparse)

/-- The first token of a value hands the demand on. -/
theorem starts_of_start? {stack : List Frame} {token : Token} {next : State} {first : List Char}
    (hstep : start? stack token = some next) (htoken : token.SpelledBy first)
    (hnext : next.Demands result text) : Starts result stack (first ++ text) := by
  cases htoken with
  | openArray =>
    cases hstep
    rcases hnext with ⟨blanks, rest, rfl, hblanks, hrest⟩ |
      ⟨tree, first, _, rfl, htree, more, blanks, tail, rest, rfl, hblanks, hmore, hrest⟩
    · exact ⟨.array [], _, rest, by simp, .of_core (.emptyArray hblanks), hrest⟩
    · exact ⟨.array (tree :: more), _, rest, by simp,
        .of_core (.array (htree.append hblanks) hmore), hrest⟩
  | openObject =>
    cases hstep
    rcases hnext with ⟨-, blanks, rest, rfl, hblanks, hrest⟩ |
      ⟨key, name, _, rfl, hkey, tree, first, _, rfl, htree, more, blanks, tail, rest, rfl, hblanks,
        hmore, hrest⟩
    · exact ⟨.object [], _, rest, by simp, .of_core (.emptyObject hblanks), hrest⟩
    · exact ⟨.object ((key, tree) :: more), _, rest, by simp,
        .of_core (.object hkey (htree.append hblanks) hmore), hrest⟩
  | string heach =>
    cases hstep
    exact ⟨_, _, text, rfl, .of_core (.string heach), demands_deliver.mp hnext⟩
  | word hne hchars =>
    obtain ⟨tree, htree, rfl⟩ := Option.map_eq_some_iff.mp hstep
    exact ⟨tree, _, text, rfl, .of_core (core_of_ofWord? htree), demands_deliver.mp hnext⟩
  | _ => cases hstep

/-- Every token hands the demand on. -/
theorem demands_of_step? {state next : State} {token : Token} {first : List Char}
    (hstep : step? state token = some next) (htoken : token.SpelledBy first)
    (hnext : next.Demands result text) : state.Demands result (first ++ text) := by
  cases state with
  | value stack => exact starts_of_start? hstep htoken hnext
  | firstItem stack =>
    simp only [step?] at hstep
    split at hstep
    · next hclose =>
      subst hclose
      cases hstep
      cases htoken
      exact .inl ⟨[], text, rfl, isBlankText_nil, demands_deliver.mp hnext⟩
    · exact .inr (starts_of_start? hstep htoken hnext)
  | key members stack =>
    cases htoken with
    | string heach =>
      cases hstep
      obtain ⟨blanks, rest, rfl, hblanks, hrest⟩ := hnext
      exact .inr ⟨_, _, rest, by simp, .padded isBlankText_nil heach hblanks, hrest⟩
    | closeObject =>
      simp only [step?] at hstep
      split at hstep
      · next hempty =>
        cases hstep
        exact .inl ⟨List.isEmpty_iff.mp hempty, [], text, rfl, isBlankText_nil,
          demands_deliver.mp hnext⟩
      · cases hstep
    | _ => cases hstep
  | colon members key stack =>
    simp only [step?] at hstep
    split at hstep
    · next hcolon =>
      subst hcolon
      cases hstep
      cases htoken
      exact ⟨[], text, rfl, isBlankText_nil, hnext⟩
    · cases hstep
  | afterItem items stack =>
    cases htoken with
    | comma =>
      cases hstep
      obtain ⟨tree, first, _, rfl, htree, more, blanks, tail, rest, rfl, hblanks, hmore, hrest⟩ :=
        hnext
      refine ⟨tree :: more, [], _, rest, ?_, isBlankText_nil,
        .cons (htree.append hblanks) hmore, ?_⟩
      · simp
      · simpa using hrest
    | closeArray =>
      cases hstep
      refine ⟨[], [], [], text, rfl, isBlankText_nil, .nil, ?_⟩
      rw [List.append_nil]
      exact demands_deliver.mp hnext
    | _ => cases hstep
  | afterMember members stack =>
    intro hmembers
    cases htoken with
    | comma =>
      cases hstep
      rcases hnext with ⟨hnil, -⟩ | ⟨key, name, _, rfl, hkey, tree, first, _, rfl, htree, more,
        blanks, tail, rest, rfl, hblanks, hmore, hrest⟩
      · exact absurd hnil hmembers
      refine ⟨(key, tree) :: more, [], _, rest, ?_, isBlankText_nil,
        .cons hkey (htree.append hblanks) hmore, ?_⟩
      · simp
      · simpa using hrest
    | closeObject =>
      cases hstep
      refine ⟨[], [], [], text, rfl, isBlankText_nil, .nil, ?_⟩
      rw [List.append_nil]
      exact demands_deliver.mp hnext
    | _ => cases hstep
  | finished tree => cases hstep

/-- A run that ends with a tree began where its text was demanded. -/
theorem demands_of_readFrom? {state : State} {tokens : List Token}
    (hscan : Token.scan? text = some tokens) (hread : readFrom? state tokens = some result) :
    state.Demands result text := by
  induction tokens generalizing state text with
  | nil =>
    rcases Token.scan?_cases hscan with ⟨hblank, -⟩ | ⟨_, _, _, _, _, -, -, -, hnil, -⟩
    · cases state with
      | finished tree => exact ⟨hblank, Option.some.inj hread⟩
      | _ => cases hread
    · cases hnil
  | cons token tokens ih =>
    obtain ⟨next, hstep, hread⟩ := Option.bind_eq_some_iff.mp hread
    rcases Token.scan?_cases hscan with
      ⟨-, hnil⟩ | ⟨blanks, first, rest, _, _, rfl, hblanks, htoken, htokens, hrest⟩
    · cases hnil
    · cases htokens
      exact (demands_of_step? hstep htoken (ih hrest hread)).prepend hblanks

end

/-! ### What is spelled is read -/

/-- Reads the remaining text, between two tokens. -/
def readText? (state : State) (text : List Char) : Option Tree :=
  (Token.scan? text).bind (readFrom? state)

theorem readText?_finished (tree : Tree) : readText? (.finished tree) [] = some tree := rfl

theorem readText?_blanks {blanks : List Char} (h : IsBlankText blanks) (state : State)
    (rest : List Char) : readText? state (blanks ++ rest) = readText? state rest := by
  unfold readText?
  rw [Token.scan?_blanks h]

/-- A token is read where it is spelled. -/
theorem readText?_token {token : Token} {first rest : List Char} (h : token.SpelledBy first)
    (hends : ∀ chars, token = .word chars → EndsWord rest) (state : State) :
    readText? state (first ++ rest) = (step? state token).bind (readText? · rest) := by
  unfold readText?
  rw [Token.scan?_token h hends, Option.bind_map]
  cases hstep : step? state token <;> cases Token.scan? rest <;> simp [readFrom?, hstep]

/-- A mark is read as its token. -/
theorem readText?_mark {c : Char} {token : Token} (h : Token.mark? c = some token) (state : State)
    (rest : List Char) :
    readText? state (c :: rest) = (step? state token).bind (readText? · rest) := by
  simp only [readText?, Token.scan?, Token.scanFrom?, Token.step?, Token.start?_mark h,
    Option.bind_map]
  cases hstep : step? state token <;> cases Token.scanFrom? .between rest <;>
    simp [readFrom?, hstep]

/-- Whether a text is read as a tree, wherever it stands. -/
def Reads (text : List Char) (tree : Tree) : Prop :=
  ∀ stack rest, EndsWord rest →
    readText? (.value stack) (text ++ rest) = readText? (deliver tree stack) rest

namespace Reads

variable {text : List Char} {tree : Tree}

theorem parse? (h : Reads text tree) : Tree.parse? text = some tree := by
  have hread := h [] [] (fun _ hc => nomatch hc)
  rwa [List.append_nil, deliver, readText?_finished] at hread

/-- A text that is read as a tree does not begin with the end of an array. -/
theorem readText?_firstItem (h : Reads text tree) (stack : List Frame) {rest : List Char}
    (hrest : EndsWord rest) :
    readText? (.firstItem stack) (text ++ rest) =
      readText? (deliver tree (.array [] :: stack)) rest := by
  obtain ⟨tokens, hscan, hread⟩ := Option.bind_eq_some_iff.mp h.parse?
  cases tokens with
  | nil => cases hread
  | cons token tokens =>
    have hopen : token ≠ .closeArray := by
      rintro rfl
      cases hread
    have hstep : step? (.firstItem stack) token = step? (.value (.array [] :: stack)) token :=
      if_neg hopen
    rw [← h (.array [] :: stack) rest hrest]
    unfold readText? Token.scan?
    rw [Token.scanFrom?_append hscan hrest, Option.bind_map, Option.bind_map]
    simp only [Function.comp_def, List.cons_append, readFrom?, hstep]

end Reads

theorem endsWord_blanks {blanks rest : List Char} (h : IsBlankText blanks) (hrest : EndsWord rest) :
    EndsWord (blanks ++ rest) := by
  cases blanks with
  | nil => exact hrest
  | cons c blanks =>
    refine endsWord_cons (Bool.eq_false_iff.mpr fun hword => ?_) _
    exact absurd (Token.not_isBlank_of_isWordChar hword ▸ h c List.mem_cons_self) Bool.false_ne_true

/-- A numeral is none of the words that stand for something else. -/
theorem ofWord?_numeral {n : Numeral} {cs : List Char} (h : n.SpelledBy cs) :
    ofWord? cs = some (.numeral n) := by
  have hparse := Numeral.parse?_eq_some_iff.mpr h
  unfold ofWord?
  split
  · next hnull =>
    subst hnull
    cases hparse
  split
  · next hyes =>
    subst hyes
    cases hparse
  split
  · next hno =>
    subst hno
    cases hparse
  · rw [hparse]
    rfl

/-- A word is read as the tree that it stands for. -/
theorem reads_of_word {chars : List Char} {tree : Tree} (hne : chars ≠ [])
    (hchars : Token.IsWordText chars) (h : ofWord? chars = some tree) : Reads chars tree := by
  intro stack rest hrest
  rw [readText?_token (.word hne hchars) fun _ _ => hrest]
  show ((ofWord? chars).map (deliver · stack)).bind (readText? · rest) = _
  rw [h]
  rfl

/-- Blanks around a tree make no difference. -/
theorem reads_of_spelledBy {tree : Tree} {text : List Char}
    (hcore : ∀ core, Core tree core → Reads core tree) (h : SpelledBy tree text) :
    Reads text tree := by
  obtain ⟨hbefore, h, hafter⟩ := h
  intro stack rest hrest
  rw [List.append_assoc, List.append_assoc, readText?_blanks hbefore,
    hcore _ h stack _ (endsWord_blanks hafter hrest), readText?_blanks hafter]

theorem endsWord_items {items : List Tree} {tail : List Char} (h : Items items tail)
    (rest : List Char) : EndsWord (tail ++ ']' :: rest) := by
  cases h with
  | nil => exact endsWord_cons rfl _
  | cons => exact endsWord_cons rfl _

theorem endsWord_members {members : List (List Piece × Tree)} {tail : List Char}
    (h : Members members tail) (rest : List Char) : EndsWord (tail ++ '\x7d' :: rest) := by
  cases h with
  | nil => exact endsWord_cons rfl _
  | cons => exact endsWord_cons rfl _

/-- A key is read up to its colon. -/
theorem readText?_key {key : List Piece} {name : List Char} (h : Key key name)
    (members : List (List Piece × Tree)) (stack : List Frame) (rest : List Char) :
    readText? (.key members stack) (name ++ ':' :: rest) =
      readText? (.value (.member members key :: stack)) rest := by
  obtain ⟨hbefore, heach, hafter⟩ := h
  rw [List.append_assoc, List.append_assoc, readText?_blanks hbefore,
    readText?_token (.string heach) nofun]
  show readText? (.colon members key stack) _ = _
  rw [readText?_blanks hafter, readText?_mark rfl]
  rfl

mutual

/-- A tree is read where it is spelled. -/
theorem reads_of_core {text : List Char} : (tree : Tree) → Core tree text → Reads text tree
  | .null, .null => reads_of_word (by decide) (by decide) rfl
  | .boolean true, .yes => reads_of_word (by decide) (by decide) rfl
  | .boolean false, .no => reads_of_word (by decide) (by decide) rfl
  | .numeral n, .numeral h =>
    reads_of_word (Numeral.isWordText_of_spelledBy h).1 (Numeral.isWordText_of_spelledBy h).2
      (ofWord?_numeral h)
  | .string pieces, .string h => by
    intro stack rest _
    rw [readText?_token (.string h) nofun]
    rfl
  | .array [], .emptyArray h => by
    intro stack rest _
    rw [List.cons_append, List.cons_append, List.append_assoc, readText?_mark rfl]
    show readText? (.firstItem stack) _ = _
    rw [readText?_blanks h, List.singleton_append, readText?_mark rfl]
    rfl
  | .array (item :: items), .array hitem hitems => by
    intro stack rest _
    have hread := reads_of_spelledBy (fun _ hcore => reads_of_core item hcore) hitem
    simp only [List.cons_append, List.append_assoc, List.nil_append]
    rw [readText?_mark rfl]
    show readText? (.firstItem stack) _ = _
    rw [hread.readText?_firstItem stack (endsWord_items hitems rest)]
    exact readText?_items items hitems [item] stack rest
  | .object [], .emptyObject h => by
    intro stack rest _
    rw [List.cons_append, List.cons_append, List.append_assoc, readText?_mark rfl]
    show readText? (.key [] stack) _ = _
    rw [readText?_blanks h, List.singleton_append, readText?_mark rfl]
    rfl
  | .object ((key, tree) :: members), .object hkey htree hmembers => by
    intro stack rest _
    have hread := reads_of_spelledBy (fun _ hcore => reads_of_core tree hcore) htree
    simp only [List.cons_append, List.append_assoc, List.nil_append]
    rw [readText?_mark rfl]
    show readText? (.key [] stack) _ = _
    rw [readText?_key hkey, hread _ _ (endsWord_members hmembers rest)]
    exact readText?_members members hmembers [(key, tree)] stack rest

theorem readText?_items {tail : List Char} :
    (items : List Tree) → Items items tail → ∀ before stack rest,
      readText? (.afterItem before stack) (tail ++ ']' :: rest) =
        readText? (deliver (.array (before.reverse ++ items)) stack) rest
  | [], .nil => by
    intro before stack rest
    rw [List.nil_append, readText?_mark rfl, List.append_nil]
    rfl
  | item :: items, .cons hitem hitems => by
    intro before stack rest
    have hread := reads_of_spelledBy (fun _ hcore => reads_of_core item hcore) hitem
    rw [List.cons_append, List.cons_append, List.append_assoc, readText?_mark rfl]
    show readText? (.value (.array before :: stack)) _ = _
    rw [hread _ _ (endsWord_items hitems rest)]
    show readText? (.afterItem (item :: before) stack) _ = _
    rw [readText?_items items hitems, List.reverse_cons, List.append_assoc, List.singleton_append]

theorem readText?_members {tail : List Char} :
    (members : List (List Piece × Tree)) → Members members tail → ∀ before stack rest,
      readText? (.afterMember before stack) (tail ++ '\x7d' :: rest) =
        readText? (deliver (.object (before.reverse ++ members)) stack) rest
  | [], .nil => by
    intro before stack rest
    rw [List.nil_append, readText?_mark rfl, List.append_nil]
    rfl
  | (key, tree) :: members, .cons hkey htree hmembers => by
    intro before stack rest
    have hread := reads_of_spelledBy (fun _ hcore => reads_of_core tree hcore) htree
    simp only [List.cons_append, List.append_assoc]
    rw [readText?_mark rfl]
    show readText? (.key before stack) _ = _
    rw [readText?_key hkey, hread _ _ (endsWord_members hmembers rest)]
    show readText? (.afterMember ((key, tree) :: before) stack) _ = _
    rw [readText?_members members hmembers, List.reverse_cons, List.append_assoc,
      List.singleton_append]

end

/-- **A text is read as a tree exactly if it spells the tree.** -/
theorem parse?_eq_some_iff {text : List Char} {tree : Tree} :
    parse? text = some tree ↔ SpelledBy tree text := by
  constructor
  · intro h
    obtain ⟨tokens, hscan, hread⟩ := Option.bind_eq_some_iff.mp h
    obtain ⟨found, first, rest, rfl, hfound, hrest, rfl⟩ := demands_of_readFrom? hscan hread
    exact hfound.append hrest
  · intro h
    exact (reads_of_spelledBy (fun _ hcore => reads_of_core tree hcore) h).parse?

end Tree

end VersionStore.Json
