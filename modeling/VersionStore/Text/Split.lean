/-! Texts in parts. -/
namespace VersionStore.Text

/-- The parts of a text between the occurrences of a character. -/
def splitAt (mark : Char) : List Char → List (List Char)
  | [] => [[]]
  | c :: rest =>
    if c = mark then [] :: splitAt mark rest
    else
      match splitAt mark rest with
      | [] => [[c]]
      | part :: parts => (c :: part) :: parts

/-- The parts of a text with a character between each two. -/
def joinWith (mark : Char) : List (List Char) → List Char
  | [] => []
  | [part] => part
  | part :: parts => part ++ mark :: joinWith mark parts

/-- The words of a text, between which there are blanks and line breaks. -/
def words (cs : List Char) : List (List Char) :=
  (splitAt ' ' (cs.map fun c => if c == '\n' then ' ' else c)).filter (!·.isEmpty)

theorem splitAt_ne_nil (mark : Char) (cs : List Char) : splitAt mark cs ≠ [] := by
  cases cs with
  | nil => simp [splitAt]
  | cons c rest =>
    simp only [splitAt]
    split
    · simp
    · split <;> simp

/-- A part ends at the first occurrence of the character. -/
theorem splitAt_append {mark : Char} {part : List Char} (h : mark ∉ part) (rest : List Char) :
    splitAt mark (part ++ mark :: rest) = part :: splitAt mark rest := by
  induction part with
  | nil => rw [List.nil_append, splitAt, if_pos rfl]
  | cons c part ih =>
    obtain ⟨hc, hpart⟩ := not_or.mp (mt List.mem_cons.mpr h)
    rw [List.cons_append, splitAt, if_neg (Ne.symm hc), ih hpart]

theorem splitAt_of_not_mem {mark : Char} {part : List Char} (h : mark ∉ part) :
    splitAt mark part = [part] := by
  induction part with
  | nil => rfl
  | cons c part ih =>
    obtain ⟨hc, hpart⟩ := not_or.mp (mt List.mem_cons.mpr h)
    rw [splitAt, if_neg (Ne.symm hc), ih hpart]

/-- Parts that do not hold the character are the parts of the text that it stands between. -/
theorem splitAt_flatMap {mark : Char} {part : List Char} {parts : List (List Char)}
    (h : ∀ p ∈ part :: parts, mark ∉ p) :
    splitAt mark (part ++ parts.flatMap (mark :: ·)) = part :: parts := by
  induction parts generalizing part with
  | nil =>
    rw [List.flatMap_nil, List.append_nil, splitAt_of_not_mem (h part List.mem_cons_self)]
  | cons next rest ih =>
    rw [List.flatMap_cons, List.cons_append, splitAt_append (h part List.mem_cons_self),
      ih fun p hp => h p (List.mem_cons_of_mem _ hp)]

/-- No part holds the character. -/
theorem not_mem_of_mem_splitAt {mark : Char} {cs part : List Char} (h : part ∈ splitAt mark cs) :
    mark ∉ part ∧ ∀ c ∈ part, c ∈ cs := by
  induction cs generalizing part with
  | nil =>
    obtain rfl := List.mem_singleton.mp h
    exact ⟨List.not_mem_nil, fun _ hc => hc⟩
  | cons c rest ih =>
    unfold splitAt at h
    split at h
    · rcases List.mem_cons.mp h with rfl | h
      · exact ⟨List.not_mem_nil, nofun⟩
      · exact ⟨(ih h).1, fun d hd => List.mem_cons_of_mem _ ((ih h).2 d hd)⟩
    · next hc =>
      split at h
      · next hnil => exact absurd hnil (splitAt_ne_nil mark rest)
      · next first parts hparts =>
        rcases List.mem_cons.mp h with rfl | h
        · have hfirst := ih (hparts ▸ List.mem_cons_self : first ∈ splitAt mark rest)
          refine ⟨fun hmem => ?_, fun d hd => ?_⟩
          · exact (List.mem_cons.mp hmem).elim (fun heq => hc heq.symm) hfirst.1
          · exact List.mem_cons.mpr ((List.mem_cons.mp hd).imp_right (hfirst.2 d))
        · have hpart := ih (hparts ▸ List.mem_cons_of_mem _ h : part ∈ splitAt mark rest)
          exact ⟨hpart.1, fun d hd => List.mem_cons_of_mem _ (hpart.2 d hd)⟩

end VersionStore.Text
