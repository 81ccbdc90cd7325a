/-
Projections of plain data: named properties are kept, each through a
function of its own.

`Keeps f v` is what a projection may be relied on for at a value: it stays
as defined as it was, gets no larger, is JSON with distinct names, and
projecting again changes nothing. It composes along the shape of the data:
over the properties of a record (`Keeps.project`), the elements of an array
(`Keeps.items`) and the values of a record used as a map
(`Keeps.values`).
-/
import Mosaic.Lib.Js

namespace Mosaic.Lib.Js

variable {δ : Type} {N : Numerals}

-- ================================================================= parts

@[simp] theorem isUndefined_undefined : (undefined : Js δ).isUndefined = true := rfl

@[simp] theorem isUndefined_null : (null : Js δ).isUndefined = false := rfl

@[simp] theorem isNull_null : (null : Js δ).isNull = true := rfl

@[simp] theorem isUndefined_array (items : List (Js δ)) : (array items).isUndefined = false := rfl

@[simp] theorem isUndefined_record (fields : List (JsStr × Js δ)) :
    (record fields).isUndefined = false := rfl

theorem Distinct.keys {v : Js δ} (h : v.Distinct) : (v.entries.map (·.1)).Nodup := by
  cases h with
  | record hkeys _ => exact hkeys
  | _ => exact List.nodup_nil

theorem Distinct.entry {v : Js δ} (h : v.Distinct) {e : JsStr × Js δ} (he : e ∈ v.entries) :
    e.2.Distinct := by
  cases h with
  | record _ hvalues => exact hvalues e he
  | _ => exact absurd he List.not_mem_nil

theorem Distinct.element {v : Js δ} (h : v.Distinct) {x : Js δ} (hx : x ∈ v.elements) :
    x.Distinct := by
  cases h with
  | array hvalues => exact hvalues x hx
  | _ => exact absurd hx List.not_mem_nil

theorem get_eq_field (v : Js δ) (k : JsStr) : v.get k = field v.entries k := by
  cases v <;> rfl

theorem defined_of_ne {v : Js δ} (h : v ≠ .undefined) : v.isUndefined = false := by
  cases v with
  | undefined => exact absurd rfl h
  | _ => rfl

theorem Distinct.get {v : Js δ} (h : v.Distinct) (k : JsStr) : (v.get k).Distinct := by
  rw [get_eq_field]
  by_cases hu : (field v.entries k).isUndefined = true
  · rw [eq_undefined hu]
    exact .undefined
  · exact h.entry (mem_of_field (Bool.eq_false_iff.mpr hu))

/-- A name that is not there. -/
theorem field_of_notMem {fields : List (JsStr × Js δ)} {k : JsStr}
    (h : k ∉ fields.map (·.1)) : field fields k = .undefined := by
  by_contra hne
  exact h (List.mem_map.mpr ⟨_, mem_of_field (defined_of_ne hne), rfl⟩)

/-- A property of a record of changed values. -/
theorem field_map (g : Js δ → Js δ) (fields : List (JsStr × Js δ)) (k : JsStr) :
    field (fields.map fun f => (f.1, g f.2)) k
      = if k ∈ fields.map (·.1) then g (field fields k) else .undefined := by
  induction fields with
  | nil => rfl
  | cons f fields ih =>
      obtain ⟨k', v⟩ := f
      rw [List.map_cons, field_cons, field_cons, ih]
      by_cases hk : k' = k
      · simp [hk]
      · have hmem : k ∈ List.map (·.1) ((k', v) :: fields) ↔ k ∈ List.map (·.1) fields := by
          simp [Ne.symm hk]
        simp only [hmem, if_neg hk]

theorem field_assign (fields : List (JsStr × Js δ)) (k k' : JsStr) (v : Js δ) :
    field (assign fields k v) k' = if k = k' then v else field fields k' := by
  unfold assign
  by_cases hmem : k ∈ fields.map (·.1)
  · rw [if_pos hmem]
    induction fields with
    | nil => cases hmem
    | cons f fields ih =>
        obtain ⟨k₁, v₁⟩ := f
        rw [List.map_cons]
        by_cases h₁ : k₁ = k
        · subst h₁
          rw [if_pos rfl, field_cons, field_cons]
          by_cases hk : k₁ = k'
          · rw [if_pos hk, if_pos hk]
          · rw [if_neg hk, if_neg hk, if_neg hk]
            by_cases hmore : k₁ ∈ fields.map (·.1)
            · rw [ih hmore, if_neg hk]
            · congr 1
              refine (List.map_congr_left fun g hg => ?_).trans (List.map_id fields)
              have hne : ¬ g.1 = k₁ := by
                rintro rfl
                exact hmore (List.mem_map.mpr ⟨g, hg, rfl⟩)
              rw [if_neg hne]
              rfl
        · have hmore : k ∈ fields.map (·.1) := by
            simpa [Ne.symm h₁] using hmem
          rw [if_neg h₁, field_cons, field_cons, ih hmore]
          by_cases hk : k₁ = k'
          · have hne : ¬ k = k' := fun h => h₁ (hk.trans h.symm)
            rw [if_pos hk, if_neg hne, if_pos hk]
          · rw [if_neg hk, if_neg hk]
  · rw [if_neg hmem, field_append]
    by_cases hk : k = k'
    · subst hk
      rw [if_neg hmem, if_pos rfl, field_cons, if_pos rfl]
    · rw [if_neg hk, field_cons, if_neg hk]
      by_cases hmem' : k' ∈ fields.map (·.1)
      · rw [if_pos hmem']
      · rw [if_neg hmem', field_of_notMem hmem']
        rfl

theorem get_set (v x : Js δ) (k k' : JsStr) :
    (v.set k x).get k' = if k = k' then x else v.get k' := by
  rw [get_eq_field v, set, get_record, field_assign]

/-- A property set to what it is. -/
theorem set_get {v : Js δ} (h : v.Distinct) {k : JsStr} (hk : k ∈ v.entries.map (·.1)) :
    v.set k (v.get k) = v := by
  cases v with
  | record fields =>
      rw [set, entries, assign, if_pos (show k ∈ fields.map (·.1) from hk)]
      congr 1
      refine (List.map_congr_left fun f hf => ?_).trans (List.map_id fields)
      by_cases hfk : f.1 = k
      · subst hfk
        have hkeys : (fields.map (·.1)).Nodup := h.keys
        rw [if_pos rfl, get_record, field_of_mem hkeys hf]
        rfl
      · rw [if_neg hfk]
        rfl
  | _ => cases hk

theorem Distinct.set {v x : Js δ} (h : v.Distinct) (hx : x.Distinct) (k : JsStr) :
    (v.set k x).Distinct := by
  apply Distinct.assign _ hx
  exact .record h.keys fun e he => h.entry he

-- ================================================================ weights

theorem weight_map_le {g : Js N.Double → Js N.Double} {fields : List (JsStr × Js N.Double)}
    (h : ∀ f ∈ fields, (f.2.isUndefined = true → (g f.2).isUndefined = true)
      ∧ bytes N (g f.2) ≤ bytes N f.2) :
    weight N (fields.map fun f => (f.1, g f.2)) ≤ weight N fields := by
  rw [weight, List.map_map]
  refine List.sum_le_sum fun f hf => ?_
  exact entryWeight_le (h f hf).1 (h f hf).2

/-- A property that is replaced changes the weight by its own. -/
theorem weight_assign {fields : List (JsStr × Js N.Double)} {k : JsStr}
    (hkeys : (fields.map (·.1)).Nodup) (hk : k ∈ fields.map (·.1)) (x : Js N.Double) :
    weight N (assign fields k x) + entryWeight N k (field fields k)
      = weight N fields + entryWeight N k x := by
  rw [assign, if_pos hk]
  induction fields with
  | nil => cases hk
  | cons f fields ih =>
      obtain ⟨k', v⟩ := f
      rw [List.map_cons, List.nodup_cons] at hkeys
      rw [List.map_cons, field_cons]
      by_cases h : k' = k
      · subst h
        have hrest : (fields.map fun f => if f.1 = k' then (k', x) else f) = fields := by
          refine (List.map_congr_left fun g hg => ?_).trans (List.map_id fields)
          have hne : ¬ g.1 = k' := by
            rintro rfl
            exact hkeys.1 (List.mem_map.mpr ⟨g, hg, rfl⟩)
          rw [if_neg hne]
          rfl
        rw [if_pos rfl, if_pos rfl, hrest, weight_cons, weight_cons]
        omega
      · have hmore : k ∈ fields.map (·.1) := by
          simpa [Ne.symm h] using hk
        have hrest := ih hkeys.2 hmore
        rw [if_neg h, if_neg h, weight_cons, weight_cons]
        omega

/-- A record is no larger than it is heavy. -/
theorem bytes_of_weight {fields : List (JsStr × Js N.Double)} (h : 0 < weight N fields) :
    bytes N (.record fields) = 1 + weight N fields := by
  rw [bytes_record, max_eq_right h]

-- ============================================================ projections

/-- The named properties, each through its function; what is `undefined` is
left out. -/
def project (keys : List (JsStr × (Js δ → Js δ))) (v : Js δ) : Js δ :=
  .record (keys.flatMap fun k => optional k.1 (k.2 (v.get k.1)))

/-- What a projection may be relied on for at `v`. -/
structure Keeps (N : Numerals) (f : Js N.Double → Js N.Double) (v : Js N.Double) : Prop where
  defined : (f v).isUndefined = v.isUndefined
  bytes_le : bytes N (f v) ≤ bytes N v
  distinct : v.Distinct → (f v).Distinct
  json : v.isUndefined = false → isJson N (f v) = true
  idem : f (f v) = f v

theorem optional_keys (k : JsStr) (v : Js δ) : ((optional k v).map (·.1)).Sublist [k] := by
  unfold optional
  by_cases h : v.isUndefined = true
  · rw [if_pos h]
    exact List.nil_sublist _
  · rw [if_neg h]
    exact List.Sublist.refl _

/-- A projection has only the named properties. -/
theorem project_keys (keys : List (JsStr × (Js δ → Js δ))) (v : Js δ) :
    ((project keys v).entries.map (·.1)).Sublist (keys.map (·.1)) := by
  show ((keys.flatMap fun k => optional k.1 (k.2 (v.get k.1))).map (·.1)).Sublist _
  induction keys with
  | nil => exact List.Sublist.refl _
  | cons k keys ih =>
      rw [List.flatMap_cons, List.map_append, List.map_cons]
      exact (optional_keys k.1 _).append ih

theorem get_project {keys : List (JsStr × (Js δ → Js δ))} (hkeys : (keys.map (·.1)).Nodup)
    (v : Js δ) {k : JsStr × (Js δ → Js δ)} (hk : k ∈ keys) :
    (project keys v).get k.1 = k.2 (v.get k.1) := by
  show field (keys.flatMap fun k => optional k.1 (k.2 (v.get k.1))) k.1 = _
  induction keys with
  | nil => cases hk
  | cons k' keys ih =>
      rw [List.map_cons, List.nodup_cons] at hkeys
      rw [List.flatMap_cons, field_optional_append]
      rcases List.mem_cons.mp hk with rfl | hmem
      · rw [if_pos rfl]
        by_cases hu : (k.2 (v.get k.1)).isUndefined = true
        · rw [if_pos hu, eq_undefined hu]
          apply field_of_notMem
          intro hin
          exact hkeys.1 ((project_keys keys v).subset hin)
        · rw [if_neg hu]
      · have hne : ¬ k'.1 = k.1 := by
          intro heq
          rw [heq] at hkeys
          exact hkeys.1 (List.mem_map.mpr ⟨k, hmem, rfl⟩)
        rw [if_neg hne]
        exact ih hkeys.2 hmem

theorem keeps_id {v : Js N.Double} (h : v.isUndefined = false → isJson N v = true) :
    Keeps N id v where
  defined := rfl
  bytes_le := le_refl _
  distinct := id
  json := h
  idem := rfl

/-- A function that agrees with a projection there and on its result. -/
theorem Keeps.congr {f g : Js N.Double → Js N.Double} {v : Js N.Double} (h : Keeps N g v)
    (hv : f v = g v) (hgv : f (g v) = g (g v)) : Keeps N f v where
  defined := by rw [hv, h.defined]
  bytes_le := by rw [hv]; exact h.bytes_le
  distinct := by rw [hv]; exact h.distinct
  json := by rw [hv]; exact h.json
  idem := by rw [hv, hgv, h.idem]

theorem weight_project (keys : List (JsStr × (Js N.Double → Js N.Double))) (v : Js N.Double) :
    weight N (project keys v).entries
      = (keys.map fun k => entryWeight N k.1 (k.2 (v.get k.1))).sum := by
  show weight N (keys.flatMap fun k => optional k.1 (k.2 (v.get k.1))) = _
  induction keys with
  | nil => rfl
  | cons k keys ih =>
      rw [List.flatMap_cons, weight_append, weight_optional, ih, List.map_cons, List.sum_cons]

theorem mem_project {keys : List (JsStr × (Js δ → Js δ))} {v : Js δ} {e : JsStr × Js δ}
    (h : e ∈ (project keys v).entries) :
    ∃ k ∈ keys, e = (k.1, k.2 (v.get k.1)) ∧ (k.2 (v.get k.1)).isUndefined = false := by
  obtain ⟨k, hk, he⟩ := List.mem_flatMap.mp h
  unfold optional at he
  by_cases hu : (k.2 (v.get k.1)).isUndefined = true
  · rw [if_pos hu] at he
    cases he
  · rw [if_neg hu] at he
    exact ⟨k, hk, List.mem_singleton.mp he, Bool.eq_false_iff.mpr hu⟩

/-- Over the properties of a record. -/
theorem Keeps.project {keys : List (JsStr × (Js N.Double → Js N.Double))}
    (hkeys : (keys.map (·.1)).Nodup) {v : Js N.Double} (hrecord : v.isRecord = true)
    (h : ∀ k ∈ keys, Keeps N k.2 (v.get k.1)) : Keeps N (Js.project keys) v where
  defined := by
    cases v with
    | record fields => rfl
    | _ => cases hrecord
  bytes_le := by
    cases v with
    | record fields =>
        show bytes N (.record (Js.project keys (.record fields)).entries) ≤ _
        rw [bytes_record, bytes_record, weight_project]
        refine Nat.add_le_add_left (max_le_max_left 1 ?_) 1
        calc (keys.map fun k => entryWeight N k.1 (k.2 (get (.record fields) k.1))).sum
            ≤ (keys.map fun k => entryWeight N k.1 (field fields k.1)).sum := by
              refine List.sum_le_sum fun k hk => ?_
              apply entryWeight_le _ (h k hk).bytes_le
              intro hu
              rw [(h k hk).defined]
              exact hu
          _ = ((keys.map (·.1)).map fun k => entryWeight N k (field fields k)).sum := by
              rw [List.map_map]
              rfl
          _ ≤ weight N fields := weight_select hkeys fields
    | _ => cases hrecord
  distinct := by
    intro hv
    apply Distinct.record (hkeys.sublist (project_keys keys v))
    intro e he
    obtain ⟨k, hk, rfl, -⟩ := mem_project he
    exact (h k hk).distinct (hv.get k.1)
  json := by
    intro _
    rw [Js.project, isJson_record]
    intro e he
    obtain ⟨k, hk, rfl, hdefined⟩ := mem_project he
    apply (h k hk).json
    rw [← (h k hk).defined]
    exact hdefined
  idem := by
    show Js.record _ = Js.record _
    congr 1
    refine List.flatMap_congr fun k hk => ?_
    rw [get_project hkeys v hk, (h k hk).idem]

/-- Over the elements of an array. -/
theorem Keeps.items {f : Js N.Double → Js N.Double} {v : Js N.Double}
    (harray : v.isArray = true) (h : ∀ x ∈ v.elements, Keeps N f x ∧ x.isUndefined = false) :
    Keeps N (fun v => .array (v.elements.map f)) v := by
  cases v with
  | array items =>
      constructor
      · rfl
      · rw [elements, bytes_array, bytes_array, List.map_map]
        refine Nat.add_le_add_left (max_le_max_left 1 (List.sum_le_sum fun x hx => ?_)) 1
        exact Nat.add_le_add_right (h x hx).1.bytes_le 1
      · intro hv
        apply Distinct.array
        intro y hy
        obtain ⟨x, hx, rfl⟩ := List.mem_map.mp hy
        exact (h x hx).1.distinct (hv.element hx)
      · intro _
        rw [isJson_array]
        intro y hy
        obtain ⟨x, hx, rfl⟩ := List.mem_map.mp hy
        exact (h x hx).1.json (h x hx).2
      · show Js.array _ = Js.array _
        congr 1
        rw [elements, elements, List.map_map]
        exact List.map_congr_left fun x hx => (h x hx).1.idem
  | _ => cases harray

/-- Over the values of a record. -/
theorem Keeps.values {f g : Js N.Double → Js N.Double} {v : Js N.Double}
    (hf : ∀ w : Js N.Double, w.Distinct → f w = .record (w.entries.map fun e => (e.1, g e.2)))
    (hv : v.Distinct) (hrecord : v.isRecord = true)
    (h : ∀ e ∈ v.entries, Keeps N g e.2 ∧ e.2.isUndefined = false) : Keeps N f v := by
  have hdistinct : (f v).Distinct := by
    rw [hf v hv]
    apply Distinct.record
    · rw [List.map_map]
      exact hv.keys
    · intro e he
      obtain ⟨x, hx, rfl⟩ := List.mem_map.mp he
      exact (h x hx).1.distinct (hv.entry hx)
  cases v with
  | record fields =>
      constructor
      · rw [hf _ hv]
        rfl
      · rw [hf _ hv, bytes_record, bytes_record]
        refine Nat.add_le_add_left (max_le_max_left 1 (weight_map_le fun e he => ?_)) 1
        refine ⟨fun hu => ?_, (h e he).1.bytes_le⟩
        rw [(h e he).1.defined]
        exact hu
      · exact fun _ => hdistinct
      · intro _
        rw [hf _ hv, isJson_record]
        intro e he
        obtain ⟨x, hx, rfl⟩ := List.mem_map.mp he
        exact (h x hx).1.json (h x hx).2
      · rw [hf _ hdistinct, hf _ hv]
        congr 1
        rw [entries, List.map_map]
        refine List.map_congr_left fun e he => ?_
        show (e.1, g (g e.2)) = (e.1, g e.2)
        rw [(h e he).1.idem]
  | _ => cases hrecord

/-- A kept property that is set is set in the projection. -/
theorem set_project {keys : List (JsStr × (Js δ → Js δ))} (hkeys : (keys.map (·.1)).Nodup)
    {v x : Js δ} {k : JsStr} (hk : (k, id) ∈ keys) (hv : (v.get k).isUndefined = false)
    (hx : x.isUndefined = false) :
    (project keys v).set k x = project keys (v.set k x) := by
  have hmem : k ∈ (project keys v).entries.map (·.1) := by
    by_contra hno
    have hget := get_project hkeys v hk
    rw [get_eq_field, field_of_notMem hno] at hget
    rw [show v.get k = .undefined from hget.symm] at hv
    cases hv
  rw [set, assign, if_pos hmem, project, entries, project]
  congr 1
  rw [List.map_flatMap]
  refine List.flatMap_congr fun k' hk' => ?_
  rw [get_set]
  by_cases h : k = k'.1
  · have hid : k'.2 = id := by
      have hpair : k' = (k, id) := List.inj_on_of_nodup_map hkeys hk' hk h.symm
      rw [hpair]
    subst h
    simp [optional, hid, hv, hx]
  · rw [if_neg h]
    refine (List.map_congr_left fun e he => ?_).trans (List.map_id _)
    have hne : ¬ e.1 = k := by
      rintro rfl
      have hin := (optional_keys k'.1 _).subset (List.mem_map.mpr ⟨e, he, rfl⟩)
      exact h (List.mem_singleton.mp hin)
    rw [if_neg hne]
    rfl

end Mosaic.Lib.Js
