import VersionStore.Proofs.Url.Path

/-! Segments in the text of a URL.

The target of a request is a text, and a server takes its path apart at the slashes. It
finds the segments that the path was made of if each of them is whole, that is if no
character in it ends a segment or the path (`segments_eq`). Encoding makes any name whole,
and a path that was read has only whole segments: its slashes, of both kinds, have ended
them (`isWhole_of_parse`). -/
namespace VersionStore.Url

/-! ### What encoding leaves -/

/-- The characters that an encoded byte is written with. -/
def codeCharacters : List Char := "%0123456789ABCDEF".toList

theorem toUpper_digitChar_mem :
    ∀ n < 16, (Nat.digitChar n).toUpper ∈ codeCharacters := by decide

theorem mem_encodeByte {b : UInt8} {c : Char} (h : c ∈ encodeByte b) : c ∈ codeCharacters := by
  have hb := b.toNat_lt
  simp only [encodeByte, List.mem_cons, List.not_mem_nil, or_false] at h
  rcases h with rfl | rfl | rfl
  · decide
  · exact toUpper_digitChar_mem _ (by omega)
  · exact toUpper_digitChar_mem _ (by omega)

/-- What is left of a text holds no character that was to be encoded. -/
theorem mem_percentEncode {reserved : Char → Bool} {cs : List Char} {c : Char}
    (h : c ∈ percentEncode reserved cs) : c ∈ codeCharacters ∨ c ∈ cs ∧ reserved c = false := by
  obtain ⟨d, hd, hc⟩ := List.mem_flatMap.mp h
  split at hc
  · obtain ⟨b, -, hb⟩ := List.mem_flatMap.mp hc
    exact .inl (mem_encodeByte hb)
  · next hreserved =>
    obtain rfl := List.mem_singleton.mp hc
    exact .inr ⟨hd, Bool.eq_false_iff.mpr hreserved⟩

/-- A text without characters that are to be encoded stays as it is. -/
theorem percentEncode_eq_self {reserved : Char → Bool} {cs : List Char}
    (h : ∀ c ∈ cs, reserved c = false) : percentEncode reserved cs = cs := by
  unfold percentEncode
  induction cs with
  | nil => rfl
  | cons c rest ih =>
    rw [List.flatMap_cons, h c List.mem_cons_self, ih fun d hd => h d (List.mem_cons_of_mem _ hd)]
    rfl

/-! ### Segments in the text of a URL -/

/-- Whether a segment stays one segment in the text of a URL: nothing in it ends a segment, or
the path. -/
def IsWhole (segment : List Char) : Prop := ∀ c ∈ segment, endsAuthority c = false

instance (segment : List Char) : Decidable (IsWhole segment) := List.decidableBAll _ segment

theorem isWhole_nil : IsWhole [] := nofun

theorem IsWhole.not_mem {segment : List Char} (h : IsWhole segment) {c : Char}
    (hc : endsAuthority c = true) : c ∉ segment :=
  fun hmem => Bool.false_ne_true ((h c hmem).symm.trans hc)

theorem isWhole_codeCharacters : IsWhole codeCharacters := by decide

/-- An encoded text is whole if it held nothing but reserved characters that could end it. -/
theorem isWhole_percentEncode {reserved : Char → Bool} {cs : List Char}
    (h : ∀ c ∈ cs, reserved c = false → endsAuthority c = false) :
    IsWhole (percentEncode reserved cs) := by
  intro c hc
  rcases mem_percentEncode hc with hcode | ⟨hmem, hreserved⟩
  · exact isWhole_codeCharacters c hcode
  · exact h c hmem hreserved

theorem reservedInSegment_of_endsAuthority {c : Char} (h : endsAuthority c = true) :
    reservedInSegment c = true := by
  simp only [endsAuthority, Bool.or_eq_true, beq_iff_eq] at h
  rcases h with ((rfl | rfl) | rfl) | rfl <;> decide

/-- Whatever a name holds, its segment is one segment. -/
theorem isWhole_segment (name : String) : IsWhole (segment name) := by
  refine isWhole_percentEncode fun c _ hreserved => ?_
  exact Bool.eq_false_iff.mpr fun hends =>
    Bool.false_ne_true (hreserved.symm.trans (reservedInSegment_of_endsAuthority hends))

/-- The segments of the path that a request for a URL names, as its target spells them. -/
def segments (url : Url) : List (List Char) :=
  (Text.splitAt '/' (url.target.toList.takeWhile (· != '?'))).tail

/-- The segments of a path that are written, of which there is at least one. -/
def written (path : List (List Char)) : List (List Char) := if path = [] then [[]] else path

theorem pathText_eq (path : List (List Char)) :
    pathText path = (written path).flatMap ('/' :: ·) := by
  cases path <;> rfl

theorem isWhole_of_mem_written {path : List (List Char)} (h : ∀ s ∈ path, IsWhole s) :
    ∀ s ∈ written path, IsWhole s := by
  unfold written
  split
  · intro s hs
    rw [List.mem_singleton.mp hs]
    exact isWhole_nil
  · exact h

/-- The segments of whole ones are these, whatever follows the path. -/
theorem segments_eq {url : Url} (h : ∀ s ∈ url.path, IsWhole s) :
    url.segments = written url.path := by
  have hwritten := isWhole_of_mem_written h
  have hmark : ∀ c ∈ pathText url.path, (c != '?') = true := by
    intro c hc
    rw [pathText_eq] at hc
    obtain ⟨s, hs, hcs⟩ := List.mem_flatMap.mp hc
    rw [bne_iff_ne]
    intro hmark
    subst hmark
    rcases List.mem_cons.mp hcs with hslash | hmem
    · exact absurd hslash (by decide)
    · exact (hwritten s hs).not_mem rfl hmem
  have hquery : (marked '?' url.query).takeWhile (· != '?') = [] := by
    cases url.query <;> rfl
  have hpath : url.target.toList.takeWhile (· != '?') = pathText url.path := by
    rw [target, String.toList_ofList, List.takeWhile_append_of_pos hmark, hquery, List.append_nil]
  have hsplit : Text.splitAt '/' (pathText url.path) = [] :: written url.path := by
    rw [pathText_eq]
    have hfree : ∀ s ∈ [] :: written url.path, '/' ∉ s := fun s hs => by
      rcases List.mem_cons.mp hs with rfl | hs
      · exact List.not_mem_nil
      · exact (hwritten s hs).not_mem rfl
    exact Text.splitAt_flatMap hfree
  rw [segments, hpath, hsplit, List.tail_cons]

/-! ### Paths that are read -/

theorem mem_of_mem_rooted {path : List (List Char)} {segment : List Char}
    (h : segment ∈ rooted path) : segment ∈ path := by
  unfold rooted at h
  split at h
  · cases h
  · exact h

theorem mem_resolveDots {done rest : List (List Char)} {segment : List Char}
    (h : segment ∈ resolveDots done rest) : segment ∈ done ∨ segment ∈ rest ∨ segment = [] := by
  induction rest generalizing done with
  | nil => exact .inl h
  | cons next rest ih =>
    -- a segment that is not the next one was there before, or is the empty one at the end
    have hlast : segment ∈ (if rest.isEmpty then [[]] else [] : List (List Char)) →
        segment = [] := by
      split
      · exact List.mem_singleton.mp
      · exact nofun
    have habove : segment ∈ above done → segment ∈ done := by
      unfold above
      split
      · exact id
      · exact fun hmem => (List.dropLast_sublist _).subset hmem
    have hdone : segment ∈ done ∨ segment = next ∨ segment ∈ rest ∨ segment = [] := by
      unfold resolveDots at h
      dsimp only at h
      split at h
      · rcases ih h with hmem | hrest
        · rcases List.mem_append.mp hmem with hmem | hmem
          · exact .inl (habove hmem)
          · exact .inr (.inr (.inr (hlast hmem)))
        · exact .inr (.inr hrest)
      · split at h
        · rcases ih h with hmem | hrest
          · rcases List.mem_append.mp hmem with hmem | hmem
            · exact .inl hmem
            · exact .inr (.inr (.inr (hlast hmem)))
          · exact .inr (.inr hrest)
        · rcases ih h with hmem | hrest
          · rcases List.mem_append.mp hmem with hmem | hmem
            · exact .inl hmem
            · exact .inr (.inl (List.mem_singleton.mp hmem))
          · exact .inr (.inr hrest)
    simpa [or_assoc] using hdone

/-- Slashes of both kinds end segments, and what would end the path is encoded. -/
theorem isWhole_of_mem_parsePath {cs : List Char} {segment : List Char}
    (h : segment ∈ parsePath cs) : IsWhole segment := by
  rcases mem_resolveDots (mem_of_mem_rooted h) with hmem | hmem | rfl
  · cases hmem
  · obtain ⟨part, hpart, rfl⟩ := List.mem_map.mp hmem
    have hpart : part ∈ Text.splitAt '/' (cs.map fun c => if c == '\\' then '/' else c) := by
      split at hpart
      · exact hpart
      · exact List.mem_of_mem_drop hpart
    refine isWhole_percentEncode fun c hc hreserved => Bool.eq_false_iff.mpr fun hends => ?_
    simp only [endsAuthority, Bool.or_eq_true, beq_iff_eq] at hends
    rcases hends with ((rfl | rfl) | rfl) | rfl
    · exact (Text.not_mem_of_mem_splitAt hpart).1 hc
    · obtain ⟨d, -, hd⟩ := List.mem_map.mp ((Text.not_mem_of_mem_splitAt hpart).2 _ hc)
      split at hd
      · exact absurd hd (by decide)
      · next hne => exact hne (beq_iff_eq.mpr hd)
    · exact absurd hreserved (by decide)
    · exact absurd hreserved (by decide)
  · exact isWhole_nil

theorem path_of_parseRest {secure : Bool} {cs : List Char} {url : Url}
    (h : parseRest secure cs = .ok url) : ∃ rest, url.path = parsePath rest := by
  unfold parseRest at h
  simp only [bind, Except.bind, pure, Except.pure] at h
  repeat' split at h
  all_goals cases h
  all_goals exact ⟨_, rfl⟩

/-- The path of a URL that was read consists of whole segments. -/
theorem isWhole_of_parse {cs : List Char} {url : Url} (h : parse cs = .ok url) :
    ∀ s ∈ url.path, IsWhole s := by
  obtain ⟨rest, hpath⟩ : ∃ rest, url.path = parsePath rest := by
    unfold parse at h
    dsimp only at h
    split at h
    · exact path_of_parseRest h
    · exact path_of_parseRest h
  intro s hs
  exact isWhole_of_mem_parsePath (hpath ▸ hs)

/-! ### What names are put behind -/

/-- Segments without an empty one at the end. -/
def trimmed (segments : List (List Char)) : List (List Char) :=
  if segments.getLast? = some [] then segments.dropLast else segments

/-- The segments of a base that names are put behind: all but an empty one at the end. Of the path
`//`, whose two segments are empty, nothing is left. -/
def front (base : Url) : List (List Char) :=
  if base.segments = [[], []] then [] else trimmed base.segments

theorem rooted_dropLast {path : List (List Char)} (hlast : path.getLast? = some [])
    (hempty : path ≠ [[], []]) : rooted path.dropLast = path.dropLast := by
  obtain ⟨before, rfl⟩ := List.getLast?_eq_some_iff.mp hlast
  rw [List.dropLast_concat]
  refine if_neg fun hroot => hempty ?_
  rw [hroot]
  rfl

/-- Names are put behind the front of a base. -/
theorem withoutTrailingSlash_eq {base : Url} (h : ∀ s ∈ base.path, IsWhole s) :
    withoutTrailingSlash base.path = front base := by
  rw [front, segments_eq h]
  unfold written withoutTrailingSlash trimmed
  by_cases hroot : base.path = []
  · rw [if_pos hroot, hroot]
    rfl
  · rw [if_neg hroot]
    by_cases hempty : base.path = [[], []]
    · rw [hempty]
      rfl
    · rw [if_neg hempty]
      split
      · next hlast => exact rooted_dropLast hlast hempty
      · rfl

end VersionStore.Url
