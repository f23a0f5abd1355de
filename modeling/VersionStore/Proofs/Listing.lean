import VersionStore.Proofs.Engine
import VersionStore.Store.Sequential

/-! Which namespaces are listed.

A listing asks for the names of all indices and keeps those that are a namespace and the
suffix. Naming the index of a namespace and stripping the suffix undo each other
(`Namespace.ofIndexName?_eq_some_iff`), so whatever names come back, in any order and any
number of times, the namespaces listed are exactly those whose index is named, each once and
in the order of their bytes (`isListing_of_names`). -/
namespace VersionStore

/-! ### Bytes of names -/

namespace Namespace

def bytes (ns : Namespace) : List UInt8 := Text.encodeUtf8 ns.text.toList

/-- The order of names is that of their bytes. -/
theorem bytes_lt {ns other : Namespace} (h : ns.text < other.text) : ns.bytes < other.bytes :=
  Text.encodeUtf8_lt (fun _ hc => val_le_of_isNameChar (ns.isNameChar_of_mem hc))
    (fun _ hc => val_le_of_isNameChar (other.isNameChar_of_mem hc)) h

end Namespace

/-! ### Listings -/

/-- Whether some namespaces are those whose indices are among some names, each listed once, in
the order of their bytes. -/
structure IsListing (names : List String) (suffix : String) (nss : List Namespace) : Prop where
  increasing : nss.Pairwise fun a b => a.bytes < b.bytes
  mem_iff : ∀ ns, ns ∈ nss ↔ ns.indexName suffix ∈ names

theorem entry_of_mem_ofList {nss : List Namespace} {entry : String × Namespace}
    (h : entry ∈ Table.ofList (nss.map fun ns => (ns.text, ns))) :
    entry.2 ∈ nss ∧ entry = (entry.2.text, entry.2) := by
  obtain ⟨ns, hns, rfl⟩ := List.mem_map.mp (Table.mem_of_mem_ofList h)
  exact ⟨hns, rfl⟩

theorem mem_sortedNamespaces {nss : List Namespace} {ns : Namespace} :
    ns ∈ sortedNamespaces nss ↔ ns ∈ nss := by
  unfold sortedNamespaces
  constructor
  · intro h
    obtain ⟨entry, hentry, rfl⟩ := List.mem_map.mp h
    exact (entry_of_mem_ofList hentry).1
  · intro h
    -- what stands under a name is the namespace of that name
    obtain ⟨other, hget⟩ := Option.isSome_iff_exists.mp
      (Table.isSome_get?_ofList (List.mem_map_of_mem (f := fun ns => (ns.text, ns)) h))
    have hother := Table.mem_of_get? hget
    have htext : ns.text = other.text := congrArg Prod.fst (entry_of_mem_ofList hother).2
    obtain rfl := Namespace.text_inj.mp htext
    exact List.mem_map.mpr ⟨_, hother, rfl⟩

theorem pairwise_sortedNamespaces (nss : List Namespace) :
    (sortedNamespaces nss).Pairwise fun a b => a.bytes < b.bytes := by
  unfold sortedNamespaces
  rw [List.pairwise_map]
  have hsorted : (Table.ofList (nss.map fun ns => (ns.text, ns))).Pairwise fun a b => a.1 < b.1 :=
    Table.sorted_ofList _
  refine hsorted.imp_of_mem fun ha hb hlt => ?_
  rw [(entry_of_mem_ofList ha).2, (entry_of_mem_ofList hb).2] at hlt
  exact Namespace.bytes_lt hlt

theorem isListing_of_names (names : List String) (suffix : String) :
    IsListing names suffix (sortedNamespaces (names.filterMap (Namespace.ofIndexName? · suffix))) where
  increasing := pairwise_sortedNamespaces _
  mem_iff := fun ns => by
    rw [mem_sortedNamespaces, List.mem_filterMap]
    constructor
    · rintro ⟨name, hname, hns⟩
      rwa [← Namespace.ofIndexName?_eq_some_iff.mp hns]
    · exact fun hname => ⟨_, hname, Namespace.ofIndexName?_eq_some_iff.mpr rfl⟩

/-- What a listing comes to, whatever engine it asks. -/
theorem Store.perform_listNamespaces {σ : Type}
    (serve : (request : Request) → σ → Result request.Answer × σ) (store : Store) (s : σ) :
    (store.perform serve .listNamespaces s).1 = (serve .listIndices s).1.map fun names =>
      .namespaces (sortedNamespaces
        (names.filterMap (Namespace.ofIndexName? · store.config.suffix))) := by
  have hstart : store.start none .listNamespaces = (.waits .listing, store) := rfl
  cases hanswer : (serve .listIndices s).1 with
  | error e | ok names => exact outcome_perform hstart hanswer rfl

end VersionStore
