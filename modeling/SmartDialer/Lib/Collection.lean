import Mathlib.Data.List.Nodup
import Mathlib.Data.List.Perm.Subperm
import Mathlib.Data.List.Sort

/-!
# Document collections with a unique key

A collection is a list of documents in which no two carry the same key. The one write
primitive besides insertion is `findOneAndUpdate`: a filter and an update applied to the
document of one key as a single indivisible step, answering with the document after the
update. Everything later developments need about it is the two-way split
`findOneAndUpdate_cases`: either the filter matched and exactly one document changed, or
nothing changed at all.
-/

namespace DocStore

/-- Documents of type `D` are identified by a key of type `K`. -/
class Keyed (D : Type) (K : outParam Type) where
  key : D → K

export Keyed (key)

/-- A collection: documents in natural order, no two of them with the same key. -/
structure Collection (D : Type) {K : Type} [Keyed D K] where
  docs : List D
  nodup : (docs.map (key : D → K)).Nodup

namespace Collection

variable {D K I : Type} [Keyed D K] [DecidableEq K]

instance : EmptyCollection (Collection D) := ⟨⟨[], List.nodup_nil⟩⟩

/-- `find_one({"_id": k})`. -/
def get? (c : Collection D) (k : K) : Option D :=
  c.docs.find? (fun d => key d = k)

/-- `find(filter)`: the matching documents in natural order. -/
def find (c : Collection D) (p : D → Prop) [DecidablePred p] : List D :=
  c.docs.filter (fun d => p d)

/-- The update half of `findOneAndUpdate`. -/
def update (c : Collection D) (k : K) (p : D → Prop) [DecidablePred p] (f : D → D)
    (hf : ∀ d, key (f d) = key d) : Collection D where
  docs := c.docs.map (fun d => if key d = k ∧ p d then f d else d)
  nodup := by
    have hkeys : (c.docs.map (fun d => if key d = k ∧ p d then f d else d)).map (key : D → K)
        = c.docs.map key := by
      rw [List.map_map]
      refine List.map_congr_left fun d _ => ?_
      by_cases h : key d = k ∧ p d
      · simp [h, hf]
      · simp [h]
    rw [hkeys]
    exact c.nodup

/-- `find_one_and_update({"_id": k, **p}, f, return_document=AFTER)`. -/
def findOneAndUpdate (c : Collection D) (k : K) (p : D → Prop) [DecidablePred p] (f : D → D)
    (hf : ∀ d, key (f d) = key d) : Option D × Collection D :=
  ((c.get? k).bind (fun d => if p d then some (f d) else none), c.update k p f hf)

/-- `insert_one(d)`; `none` is the duplicate-key answer. -/
def insertOne (c : Collection D) (d : D) : Option (Collection D) :=
  if h : ∀ e ∈ c.docs, key e ≠ key d then
    some ⟨c.docs ++ [d], by
      rw [List.map_append, List.nodup_append]
      refine ⟨c.nodup, by simp, ?_⟩
      simp only [List.mem_map, List.map_cons, List.map_nil, List.mem_singleton]
      rintro _ ⟨e, he, rfl⟩ _ rfl
      exact h e he⟩
  else none

/-! ## Lookup

By its key a document is found at most once, so lookup and membership are two views of one thing,
and the matching documents of two collections can be counted against each other. -/

@[simp] theorem get?_empty (k : K) : (∅ : Collection D).get? k = none := rfl

theorem key_of_get? {c : Collection D} {k : K} {d : D} (h : c.get? k = some d) : key d = k := by
  have := List.find?_some h
  simpa using this

theorem mem_of_get? {c : Collection D} {k : K} {d : D} (h : c.get? k = some d) : d ∈ c.docs :=
  List.mem_of_find?_eq_some h

theorem get?_of_mem {c : Collection D} {d : D} (h : d ∈ c.docs) : c.get? (key d) = some d := by
  cases hget : c.get? (key d) with
  | none =>
    have := List.find?_eq_none.mp hget d h
    simp at this
  | some e =>
    have hkey := key_of_get? hget
    exact congrArg some (List.inj_on_of_nodup_map c.nodup (mem_of_get? hget) h hkey)

/-- Membership and lookup under its own key say the same of a document. -/
theorem mem_docs_iff {c : Collection D} {d : D} : d ∈ c.docs ↔ c.get? (key d) = some d :=
  ⟨get?_of_mem, mem_of_get?⟩

theorem mem_find {c : Collection D} {p : D → Prop} [DecidablePred p] {d : D} :
    d ∈ c.find p ↔ c.get? (key d) = some d ∧ p d := by
  simp [find, mem_docs_iff]

omit [DecidableEq K] in
theorem find_nodup (c : Collection D) (p : D → Prop) [DecidablePred p] :
    ((c.find p).map (key : D → K)).Nodup :=
  c.nodup.sublist (List.filter_sublist.map _)

omit [DecidableEq K] in
/-- As many documents on the left as on the right at most, when each of the left names one of its
own on the right. -/
theorem length_find_le_of_injective {D' K' : Type} [Keyed D' K'] [DecidableEq K']
    {c : Collection D} {c' : Collection D'} {p : D → Prop} [DecidablePred p] {q : D' → Prop}
    [DecidablePred q] (f : D → K') (hf : ∀ d ∈ c.find p, ∃ e, c'.get? (f d) = some e ∧ q e)
    (hinj : ∀ d ∈ c.find p, ∀ d' ∈ c.find p, f d = f d' → d = d') :
    (c.find p).length ≤ (c'.find q).length := by
  have hnodup : ((c.find p).map f).Nodup :=
    List.Nodup.map_on hinj (List.Nodup.of_map _ (c.find_nodup p))
  -- the keys named on the left are different keys of documents on the right
  have hsub : (c.find p).map f ⊆ (c'.find q).map key := by
    intro k hk
    obtain ⟨d, hd, rfl⟩ := List.mem_map.mp hk
    obtain ⟨e, he, hq⟩ := hf d hd
    have hkey := key_of_get? he
    exact List.mem_map.mpr ⟨e, mem_find.mpr ⟨hkey.symm ▸ he, hq⟩, hkey⟩
  have hle := (List.subperm_of_subset hnodup hsub).length_le
  rwa [List.length_map, List.length_map] at hle

/-- The same, but for one document. -/
theorem length_find_le_succ {c c' : Collection D} {p : D → Prop} [DecidablePred p] (k : K)
    (h : ∀ d ∈ c'.find p, key d ≠ k → ∃ e, c.get? (key d) = some e ∧ p e) :
    (c'.find p).length ≤ (c.find p).length + 1 := by
  have hnodup := (c'.find_nodup p).erase k
  have hsub : ((c'.find p).map key).erase k ⊆ (c.find p).map key := by
    intro j hj
    have hne : j ≠ k := fun hjk => (List.Nodup.not_mem_erase (c'.find_nodup p)) (hjk ▸ hj)
    obtain ⟨d, hd, rfl⟩ := List.mem_map.mp (List.mem_of_mem_erase hj)
    obtain ⟨e, he, hpe⟩ := h d hd hne
    have hkey := key_of_get? he
    exact List.mem_map.mpr ⟨e, mem_find.mpr ⟨hkey.symm ▸ he, hpe⟩, hkey⟩
  have hle := (List.subperm_of_subset hnodup hsub).length_le
  have herase := List.le_length_erase (a := k) (l := (c'.find p).map key)
  rw [List.length_map] at hle herase
  omega

omit [DecidableEq K] in
theorem find_length_le (c : Collection D) (p : D → Prop) [DecidablePred p] :
    (c.find p).length ≤ c.docs.length :=
  List.length_filter_le _ _

/-- Two collections with the same matching documents have them in some order each. -/
theorem find_perm {c c' : Collection D} {p : D → Prop} [DecidablePred p]
    (h : ∀ d, p d → (c.get? (key d) = some d ↔ c'.get? (key d) = some d)) :
    (c.find p).Perm (c'.find p) := by
  refine (List.perm_ext_iff_of_nodup (List.Nodup.of_map _ (c.find_nodup p))
    (List.Nodup.of_map _ (c'.find_nodup p))).mpr fun d => ?_
  rw [mem_find, mem_find]
  exact and_congr_left fun hp => h d hp

/-! ## Conditional update

The lemmas describe the collection afterwards by what `get?` answers, key by key: callers reason
about the documents they know and never about the list. -/

section Update

variable {c : Collection D} {k : K} {p : D → Prop} [DecidablePred p] {f : D → D}
  (hf : ∀ d, key (f d) = key d)

theorem update_of_not_match (h : ∀ d, c.get? k = some d → ¬ p d) : c.update k p f hf = c := by
  have hdocs : (c.update k p f hf).docs = c.docs := by
    refine (List.map_congr_left fun d hd => ?_).trans (List.map_id _)
    refine if_neg fun hm => ?_
    exact h d (hm.1 ▸ get?_of_mem hd) hm.2
  cases c
  cases hc : update _ k p f hf
  simp_all

theorem get?_update_self {d : D} (h : c.get? k = some d) (hp : p d) :
    (c.update k p f hf).get? k = some (f d) := by
  have hk := key_of_get? h
  have hmem : f d ∈ (c.update k p f hf).docs :=
    List.mem_map.mpr ⟨d, mem_of_get? h, if_pos ⟨hk, hp⟩⟩
  have := get?_of_mem hmem
  rwa [hf, hk] at this

/-- An update leaves every document but its own as it was. -/
theorem get?_update_of_ne {k' : K} (hk : k' ≠ k) :
    (c.update k p f hf).get? k' = c.get? k' := by
  unfold get? update
  rw [List.find?_map]
  -- the update keeps keys, so the search stops at the same document
  have hpred : ((fun d : D => decide (key d = k')) ∘ fun d => if key d = k ∧ p d then f d else d)
      = fun d : D => decide (key d = k') := by
    funext d
    by_cases h : key d = k ∧ p d
    · simp [h, hf]
    · simp [h]
  rw [hpred]
  cases hfind : c.docs.find? (fun d => decide (key d = k')) with
  | none => rfl
  | some d =>
    have hd : key d = k' := by simpa using List.find?_some hfind
    rw [Option.map_some, if_neg]
    exact fun hm => hk (hd.symm.trans hm.1)

/-- A conditional update moves one document in or out of a count. The list is taken apart at the
document; the others have other keys and stay. -/
theorem countP_update (q : D → Bool) {d : D} (hd : c.get? k = some d) (hp : p d) :
    (c.update k p f hf).docs.countP q + (if q d then 1 else 0)
      = c.docs.countP q + (if q (f d) then 1 else 0) := by
  obtain ⟨l₁, l₂, hsplit⟩ := List.append_of_mem (mem_of_get? hd)
  have hkey : key d = k := key_of_get? hd
  have hnodup := c.nodup
  rw [hsplit, List.map_append, List.map_cons, List.nodup_middle, List.nodup_cons] at hnodup
  -- no other document has this key
  have hothers : ∀ l : List D, (∀ e ∈ l, key e ≠ k) →
      l.map (fun e => if key e = k ∧ p e then f e else e) = l := by
    intro l hl
    refine (List.map_congr_left fun e he => ?_).trans (List.map_id l)
    exact if_neg fun hm => hl e he hm.1
  have hne : ∀ e ∈ l₁ ++ l₂, key e ≠ k := by
    intro e he hek
    refine hnodup.1 ?_
    rw [← List.map_append, hkey, ← hek]
    exact List.mem_map_of_mem he
  have hdocs : (c.update k p f hf).docs = l₁ ++ f d :: l₂ := by
    show c.docs.map _ = _
    rw [hsplit, List.map_append, List.map_cons, if_pos ⟨hkey, hp⟩,
      hothers l₁ fun e he => hne e (List.mem_append_left _ he),
      hothers l₂ fun e he => hne e (List.mem_append_right _ he)]
  rw [hdocs, hsplit, List.countP_append, List.countP_append, List.countP_cons, List.countP_cons]
  omega

/-- What one conditional update can do: the filter matched and one document became `f` of
itself, or the answer is `none` and the collection is the one it was. -/
theorem findOneAndUpdate_cases (c : Collection D) (k : K) (p : D → Prop) [DecidablePred p]
    (f : D → D) (hf : ∀ d, key (f d) = key d) :
    (∃ d, c.get? k = some d ∧ p d ∧ (c.findOneAndUpdate k p f hf).1 = some (f d)
        ∧ (c.findOneAndUpdate k p f hf).2.get? k = some (f d)
        ∧ ∀ k', k' ≠ k → (c.findOneAndUpdate k p f hf).2.get? k' = c.get? k')
    ∨ ((∀ d, c.get? k = some d → ¬ p d) ∧ (c.findOneAndUpdate k p f hf).1 = none
        ∧ (c.findOneAndUpdate k p f hf).2 = c) := by
  by_cases h : ∃ d, c.get? k = some d ∧ p d
  · obtain ⟨d, hd, hp⟩ := h
    refine Or.inl ⟨d, hd, hp, ?_, get?_update_self hf hd hp,
      fun k' hk' => get?_update_of_ne hf hk'⟩
    simp [findOneAndUpdate, hd, hp]
  -- no document, or one that the filter rejects
  · have hno : ∀ d, c.get? k = some d → ¬ p d := fun d hd hp => h ⟨d, hd, hp⟩
    refine Or.inr ⟨hno, ?_, update_of_not_match hf hno⟩
    cases hget : c.get? k with
    | none => simp [findOneAndUpdate, hget]
    | some d => simp [findOneAndUpdate, hget, hno d hget]

/-- Lookup after a conditional update. -/
theorem get?_findOneAndUpdate (k' : K) :
    (c.findOneAndUpdate k p f hf).2.get? k'
      = if k' = k then (c.get? k).map (fun d => if p d then f d else d) else c.get? k' := by
  by_cases hk : k' = k
  · subst hk
    rw [if_pos rfl]
    rcases findOneAndUpdate_cases c k' p f hf with ⟨d, hd, hp, -, hget, -⟩ | ⟨hno, -, hc⟩
    · rw [hget, hd, Option.map_some, if_pos hp]
    · rw [hc]
      cases hget : c.get? k' with
      | none => rfl
      | some d => rw [Option.map_some, if_neg (hno d hget)]
  · rw [if_neg hk]
    exact get?_update_of_ne hf hk

theorem get?_findOneAndUpdate_of_match {d : D} (hd : c.get? k = some d) (hp : p d) :
    (c.findOneAndUpdate k p f hf).2.get? k = some (f d) := by
  rw [get?_findOneAndUpdate, if_pos rfl, hd, Option.map_some, if_pos hp]

/-- What a conditional update makes of one document. -/
theorem findOneAndUpdate_of_get? {k' : K} {d : D} (hd : c.get? k' = some d) :
    (c.findOneAndUpdate k p f hf).2.get? k' = some d
    ∨ key d = k ∧ p d ∧ (c.findOneAndUpdate k p f hf).2.get? k' = some (f d) := by
  rw [get?_findOneAndUpdate]
  by_cases hk : k' = k
  · subst hk
    rw [if_pos rfl, hd, Option.map_some]
    by_cases hp : p d
    · exact Or.inr ⟨key_of_get? hd, hp, by rw [if_pos hp]⟩
    · exact Or.inl (by rw [if_neg hp])
  · rw [if_neg hk]
    exact Or.inl hd

/-- A conditional update adds no document. -/
theorem findOneAndUpdate_eq_none {k' : K} (hd : c.get? k' = none) :
    (c.findOneAndUpdate k p f hf).2.get? k' = none := by
  rw [get?_findOneAndUpdate]
  split
  · next hk => rw [← hk, hd, Option.map_none]
  · exact hd

end Update

/-! ## Insertion

An insertion fails exactly on a key that is taken, and otherwise adds one document at the end. -/

theorem insertOne_eq_none {c : Collection D} {d : D} :
    c.insertOne d = none ↔ ∃ e ∈ c.docs, key e = key d := by
  unfold insertOne
  split
  · next h => simpa using h
  · next h => simpa using h

theorem docs_of_insertOne {c c' : Collection D} {d : D} (h : c.insertOne d = some c') :
    c'.docs = c.docs ++ [d] := by
  unfold insertOne at h
  split at h
  · exact (Option.some.inj h) ▸ rfl
  · contradiction

theorem get?_none_of_insertOne {c c' : Collection D} {d : D} (h : c.insertOne d = some c') :
    c.get? (key d) = none := by
  cases hget : c.get? (key d) with
  | none => rfl
  | some e =>
    have hnone := insertOne_eq_none.mpr ⟨e, mem_of_get? hget, key_of_get? hget⟩
    rw [hnone] at h
    contradiction

/-- Lookup after a successful insertion. -/
theorem get?_of_insertOne {c c' : Collection D} {d : D} (h : c.insertOne d = some c') (k : K) :
    c'.get? k = if k = key d then some d else c.get? k := by
  have hnone := get?_none_of_insertOne h
  have hdocs := docs_of_insertOne h
  have hsplit : c'.get? k = (c.get? k).or ([d].find? (fun e => key e = k)) := by
    unfold get?
    rw [hdocs, List.find?_append]
  rw [hsplit]
  by_cases hk : k = key d
  · subst hk
    simp [hnone]
  · have hk' : ¬ key d = k := fun h' => hk h'.symm
    simp [hk, hk']

theorem mem_of_insertOne {c c' : Collection D} {d e : D} (h : c.insertOne d = some c')
    (he : e ∈ c'.docs) : e ∈ c.docs ∨ e = d := by
  rw [docs_of_insertOne h] at he
  simpa using he

/-! ## Many documents at once

`update_many` is no single step for a caller that looks at several documents, but it rewrites each
document by itself, and lookup says so. -/

/-- `update_many(filter, f)`. -/
def updateMany (c : Collection D) (p : D → Prop) [DecidablePred p] (f : D → D)
    (hf : ∀ d, key (f d) = key d) : Collection D where
  docs := c.docs.map fun d => if p d then f d else d
  nodup := by
    have hkeys : (c.docs.map fun d => if p d then f d else d).map (key : D → K)
        = c.docs.map key := by
      rw [List.map_map]
      refine List.map_congr_left fun d _ => ?_
      show key (if p d then f d else d) = key d
      split
      · exact hf d
      · rfl
    rw [hkeys]
    exact c.nodup

theorem get?_updateMany (c : Collection D) (p : D → Prop) [DecidablePred p] (f : D → D)
    (hf : ∀ d, key (f d) = key d) (k : K) :
    (c.updateMany p f hf).get? k = (c.get? k).map fun d => if p d then f d else d := by
  unfold get? updateMany
  rw [List.find?_map]
  congr 2
  funext d
  have hkey : key (if p d then f d else d) = key d := by
    split
    · exact hf d
    · rfl
  exact congrArg (fun k' => decide (k' = k)) hkey

/-- `insert_many(ds)`; `none` is the duplicate-key answer. -/
def insertMany (c : Collection D) (ds : List D) : Option (Collection D) :=
  ds.foldlM insertOne c

theorem mem_of_insertMany {ds : List D} {c c' : Collection D} (h : c.insertMany ds = some c')
    {e : D} (he : e ∈ c'.docs) : e ∈ c.docs ∨ e ∈ ds := by
  induction ds generalizing c with
  | nil =>
    cases h
    exact Or.inl he
  | cons d ds ih =>
    unfold insertMany at h
    rw [List.foldlM_cons] at h
    obtain ⟨c₁, hone, hrest⟩ := Option.bind_eq_some_iff.mp h
    rcases ih hrest with he | he
    · rcases mem_of_insertOne hone he with he | rfl
      · exact Or.inl he
      · exact Or.inr List.mem_cons_self
    · exact Or.inr (List.mem_cons_of_mem d he)

/-! ## Unique secondary indexes

A unique partial index is an invariant of the collection: where the index has no value a document is
unconstrained. -/

/-- No two documents share a value of the (partial) index `ix`. -/
def UniqueOn (c : Collection D) (ix : D → Option I) : Prop :=
  ∀ d ∈ c.docs, ∀ e ∈ c.docs, ∀ i, ix d = some i → ix e = some i → key d = key e

omit [DecidableEq K] in
theorem UniqueOn.empty (ix : D → Option I) : (∅ : Collection D).UniqueOn ix := by
  intro d hd
  cases hd

/-- An update that leaves the index value of every document alone keeps the index unique. -/
theorem UniqueOn.update {c : Collection D} {ix : D → Option I} (h : c.UniqueOn ix) {k : K}
    {p : D → Prop} [DecidablePred p] {f : D → D} (hf : ∀ d, key (f d) = key d)
    (hix : ∀ d, ix (f d) = ix d) : (c.update k p f hf).UniqueOn ix := by
  intro d' hd' e' he' i hdi hei
  obtain ⟨d, hd, rfl⟩ := List.mem_map.mp hd'
  obtain ⟨e, he, rfl⟩ := List.mem_map.mp he'
  have hkey : ∀ x : D, key (if key x = k ∧ p x then f x else x) = key x := by
    intro x
    split
    · exact hf x
    · rfl
  have hval : ∀ x : D, ix (if key x = k ∧ p x then f x else x) = ix x := by
    intro x
    split
    · exact hix x
    · rfl
  rw [hkey, hkey]
  exact h d hd e he i (hval d ▸ hdi) (hval e ▸ hei)

/-- Giving one document a value no other document has keeps the index unique. -/
theorem UniqueOn.update_fresh {c : Collection D} {ix : D → Option I} (h : c.UniqueOn ix) {k : K}
    {p : D → Prop} [DecidablePred p] {f : D → D} (hf : ∀ d, key (f d) = key d)
    (hfresh : ∀ d ∈ c.docs, key d = k → p d → ∀ i, ix (f d) = some i →
      ∀ e ∈ c.docs, ix e = some i → key e = k) : (c.update k p f hf).UniqueOn ix := by
  intro d' hd' e' he' i hdi hei
  obtain ⟨d, hd, rfl⟩ := List.mem_map.mp hd'
  obtain ⟨e, he, rfl⟩ := List.mem_map.mp he'
  by_cases hdm : key d = k ∧ p d
  · rw [if_pos hdm] at hdi ⊢
    by_cases hem : key e = k ∧ p e
    · rw [if_pos hem, hf, hf, hdm.1, hem.1]
    · rw [if_neg hem] at hei ⊢
      rw [hf, hdm.1, hfresh d hd hdm.1 hdm.2 i hdi e he hei]
  · rw [if_neg hdm] at hdi ⊢
    by_cases hem : key e = k ∧ p e
    · rw [if_pos hem] at hei ⊢
      rw [hf, hem.1, hfresh e he hem.1 hem.2 i hei d hd hdi]
    · rw [if_neg hem] at hei ⊢
      exact h d hd e he i hdi hei

theorem UniqueOn.insertOne {c c' : Collection D} {ix : D → Option I} (h : c.UniqueOn ix) {d : D}
    (hins : c.insertOne d = some c') (hfresh : ∀ e ∈ c.docs, ∀ i, ix d = some i → ix e ≠ some i) :
    c'.UniqueOn ix := by
  intro x hx y hy i hxi hyi
  rw [docs_of_insertOne hins, List.mem_append, List.mem_singleton] at hx hy
  rcases hx with hx | rfl <;> rcases hy with hy | rfl
  · exact h x hx y hy i hxi hyi
  · exact absurd hxi (hfresh x hx i hyi)
  · exact absurd hyi (hfresh y hy i hxi)
  · rfl

/-- Two documents with one index value are one document. -/
theorem UniqueOn.eq {c : Collection D} {ix : D → Option I} (h : c.UniqueOn ix) {k k' : K} {d e : D}
    (hd : c.get? k = some d) (he : c.get? k' = some e) {i : I} (hdi : ix d = some i)
    (hei : ix e = some i) : k = k' := by
  have := h d (mem_of_get? hd) e (mem_of_get? he) i hdi hei
  rwa [key_of_get? hd, key_of_get? he] at this

end Collection

/-- Two rewritings of one document in a row, as one. -/
theorem rel_comp {D : Type} {R S T : D → D → Prop} {x y z : Option D}
    (hRS : ∀ d e f, x = some d → y = some e → R d e → S e f → T d f) (h : Option.Rel R x y)
    (h' : Option.Rel S y z) : Option.Rel T x z := by
  cases h with
  | none =>
    cases h'
    exact .none
  | some hR =>
    cases h' with
    | some hS => exact .some (hRS _ _ _ rfl rfl hR hS)

theorem rel_left {D : Type} {R : D → D → Prop} {x y : Option D} (h : Option.Rel R x y) {d : D}
    (hd : x = some d) : ∃ e, y = some e ∧ R d e := by
  subst hd
  cases h with
  | some hR => exact ⟨_, rfl, hR⟩

theorem rel_right {D : Type} {R : D → D → Prop} {x y : Option D} (h : Option.Rel R x y) {e : D}
    (he : y = some e) : ∃ d, x = some d ∧ R d e := by
  subst he
  cases h with
  | some hR => exact ⟨_, rfl, hR⟩

theorem rel_refl {D : Type} {R : D → D → Prop} (hR : ∀ d, R d d) (x : Option D) :
    Option.Rel R x x := by
  cases x with
  | none => exact .none
  | some d => exact .some (hR d)

end DocStore
