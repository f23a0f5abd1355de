import VersionStore.Proofs.Threads.Provenance

/-! Namespaces, classifications and identifiers do not mix.

Whatever the calls of a new store do at the same time, a read returns only what it asks
for: records that a put has written to the very namespace and classification that it
reads, with the identifier of the path asked for or one that starts with the text asked
for (`isolation`). It makes no difference whether the cache answers or the engine does. -/
namespace VersionStore.Threads

/-- Nothing is held yet, so nothing is unaccounted for. -/
theorem traced_fresh (config : StoreConfig) (clock : Clock) (timed : Bool) :
    Traced (fun _ => True) 0 0 [] (fresh config clock timed) where
  genuine := fun ns r hr => absurd hr List.not_mem_nil
  documents := fun ns _ d hd => by
    have hnone : (fresh config clock timed).engine.documents ((fresh config clock timed).index ns) =
      [] := rfl
    rw [hnone] at hd
    cases hd
  since_le := Nat.zero_le _
  held := fun s r hheld => by
    have hnone : (fresh config clock timed).store.memory.cache.held? s = none :=
      Cache.held?_make config.ttl s
    rw [hnone] at hheld
    cases hheld
  calls := fun id c hc => by cases hc

/-- A read returns records that were put into its namespace and that it asks for. This is
so in every state that a store can reach, so also in the one in which the read returns: the
put came before. What the cache holds stands under the key of a read that returned it. -/
theorem isolation (config : StoreConfig) (clock : Clock) (timed : Bool) {moves : List Move}
    (hown : ∀ move ∈ moves, move.isOwn = true) :
    let start := fresh config clock timed
    let t := start.run moves
    (∀ id call ns r, t.call? id = some call → call.reads? = some ns → r ∈ t.returned id →
      call.Suits r ∧ r.identifier = Identifier.derive r.path ∧ (ns, r) ∈ start.writes moves ∧
        ∃ put write, t.call? put = some write ∧ write.Puts ns r) ∧
    ∀ s r, t.store.memory.cache.held? s = some r →
      ∃ id call read, t.call? id = some call ∧ call.latest? = some read ∧
        r ∈ t.returned id ∧ s = read.key.encode := by
  intro start t
  have hfits : start.Fits := fits_fresh config clock timed {}
  have htraced : Traced (fun _ => True) 0 0 (start.writes moves) t :=
    (traced_fresh config clock timed).run hfits hown
  constructor
  · intro id call ns r hcall hreads hr
    obtain ⟨hmem, hsuits⟩ := htraced.backed_of_returned hcall hreads trivial (Nat.zero_le _) hr
    exact ⟨hsuits, htraced.genuine ns r hmem, hmem, hfits.puts_of_mem_writes hown hmem⟩
  · intro s r hheld
    obtain ⟨id, c, read, hc, hended, hlatest, hkey, -⟩ := htraced.held s r hheld
    refine ⟨id, c.call, read, by rw [call?, hc]; rfl, hlatest, ?_, hkey⟩
    simp [returned, outcome?, hc, hended, Reply.contents]

/-- A read that begins with a put and finds what it writes. -/
theorem isolation_of_put_get :
    let ns : Namespace := ⟨"a", by decide, by decide⟩
    let context : Context := ⟨⟨[0]⟩, none⟩
    let both : List Move :=
      [.begin context (.put ns "c" "p" "k" "v"), .begin context (.get ns "c" "p")]
    let moves : List Move :=
      both ++ [.go 1, .go 0, .go 1, .serve 0, .go 0, .go 1, .serve 1, .go 1]
    let r := Record.make "c" "p" "k" "v" 7
    let t := fresh .standard ⟨7, 0⟩
    (∀ move ∈ moves, move.isOwn = true) ∧ r ∈ (t.run moves).returned 1 ∧
      Call.Suits (.get ns "c" "p") r ∧ (ns, r) ∈ t.writes moves := by
  intro ns context both moves r t
  have hown : ∀ move ∈ moves, move.isOwn = true := by decide
  have hr : r ∈ (t.run moves).returned 1 := by decide +kernel
  have hcall : (t.run moves).call? 1 = some (.get ns "c" "p") := by
    rw [run_append]
    exact call?_run rfl _
  obtain ⟨hread, -⟩ := isolation .standard ⟨7, 0⟩ true hown
  obtain ⟨hsuits, -, hmem, -⟩ := hread 1 _ ns r hcall rfl hr
  exact ⟨hown, hr, hsuits, hmem⟩

end VersionStore.Threads
