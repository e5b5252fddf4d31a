namespace Targeting

universe u v

variable {α : Type u} {β : Type v}

@[ext]
structure Table (α : Type u) where
  entries : List (String × α)
  ordered : entries.Pairwise fun a b => a.1 < b.1
  deriving Repr

namespace Table

def put (k : String) (a : α) : List (String × α) → List (String × α)
  | [] => [(k, a)]
  | e :: es =>
    if k < e.1 then (k, a) :: e :: es
    else if k = e.1 then (k, a) :: es
    else e :: put k a es

theorem fst_mem_put {k : String} {a : α} {es : List (String × α)} {e : String × α}
    (h : e ∈ put k a es) : e = (k, a) ∨ e ∈ es := by
  fun_induction put k a es with
  | case1 => simpa using h
  | case2 => simpa using h
  | case3 d es _ hk => rcases List.mem_cons.1 h with h | h <;> simp [h]
  | case4 d es _ _ ih =>
    rcases List.mem_cons.1 h with h | h
    · simp [h]
    · rcases ih h with h | h <;> simp [h]

theorem put_ordered (k : String) (a : α) {es : List (String × α)}
    (h : es.Pairwise fun a b => a.1 < b.1) : (put k a es).Pairwise fun a b => a.1 < b.1 := by
  fun_induction put k a es with
  | case1 => simp
  | case2 e es hk =>
    refine List.pairwise_cons.2 ⟨fun d hd => ?_, h⟩
    rcases List.mem_cons.1 hd with rfl | hd
    · exact hk
    · exact String.lt_trans hk ((List.pairwise_cons.1 h).1 d hd)
  | case3 e es _ hk =>
    have h := List.pairwise_cons.1 h
    exact List.pairwise_cons.2 ⟨fun d hd => hk ▸ h.1 d hd, h.2⟩
  | case4 e es hlt hne ih =>
    have h := List.pairwise_cons.1 h
    refine List.pairwise_cons.2 ⟨fun d hd => ?_, ih h.2⟩
    rcases fst_mem_put hd with rfl | hd
    · exact Std.lt_of_le_of_ne (String.not_lt.1 hlt) (Ne.symm hne)
    · exact h.1 d hd

def empty : Table α := ⟨[], .nil⟩

instance : EmptyCollection (Table α) := ⟨empty⟩

instance : Inhabited (Table α) := ⟨empty⟩

def get? (t : Table α) (k : String) : Option α := t.entries.lookup k

def contains (t : Table α) (k : String) : Bool := (t.get? k).isSome

def keys (t : Table α) : List String := t.entries.map Prod.fst

def size (t : Table α) : Nat := t.entries.length

def isEmpty (t : Table α) : Bool := t.entries.isEmpty

def insert (t : Table α) (k : String) (a : α) : Table α :=
  ⟨put k a t.entries, put_ordered k a t.ordered⟩

def erase (t : Table α) (k : String) : Table α :=
  ⟨t.entries.filter fun e => e.1 != k, t.ordered.filter _⟩

def insertAll (t : Table α) (es : List (String × α)) : Table α :=
  es.foldl (fun t e => t.insert e.1 e.2) t

def ofList (es : List (String × α)) : Table α := insertAll ∅ es

def map (f : α → β) (t : Table α) : Table β :=
  ⟨t.entries.map fun e => (e.1, f e.2), List.pairwise_map.2 t.ordered⟩

theorem put_last (k : String) (a : α) {es : List (String × α)} (h : ∀ e ∈ es, e.1 < k) :
    put k a es = es ++ [(k, a)] := by
  induction es with
  | nil => rfl
  | cons e es ih =>
    have ⟨he, hes⟩ := List.forall_mem_cons.1 h
    have hne : k ≠ e.1 := fun heq => String.lt_irrefl _ (heq ▸ he)
    rw [put, if_neg (fun hlt => String.lt_irrefl _ (String.lt_trans hlt he)), if_neg hne, ih hes]
    rfl

theorem entries_insertAll (t : Table α) {es : List (String × α)}
    (h : (t.entries ++ es).Pairwise fun a b => a.1 < b.1) :
    (t.insertAll es).entries = t.entries ++ es := by
  induction es generalizing t with
  | nil => exact (List.append_nil _).symm
  | cons e es ih =>
    have hlast : (t.insert e.1 e.2).entries = t.entries ++ [e] :=
      put_last e.1 e.2 fun d hd => (List.pairwise_append.1 h).2.2 d hd e List.mem_cons_self
    rw [List.append_cons, ← hlast] at h ⊢
    exact ih (t.insert e.1 e.2) h

theorem ofList_entries (t : Table α) : ofList t.entries = t :=
  Table.ext (entries_insertAll ∅ t.ordered)

theorem lookup_cons_ite (k : String) (e : String × α) (es : List (String × α)) :
    (e :: es).lookup k = if k = e.1 then some e.2 else es.lookup k := by
  obtain ⟨j, a⟩ := e
  by_cases h : k = j
  · simp [h]
  · simp [List.lookup_cons, h, beq_false_of_ne h]

theorem lookup_put (k : String) (a : α) (es : List (String × α)) (j : String) :
    (put k a es).lookup j = if j = k then some a else es.lookup j := by
  fun_induction put k a es with
  | case1 => rw [lookup_cons_ite]
  | case2 => rw [lookup_cons_ite]
  | case3 e es _ hk => simp only [lookup_cons_ite, ← hk]; split <;> rfl
  | case4 e es _ hne ih =>
    rw [lookup_cons_ite, lookup_cons_ite, ih]
    by_cases h : j = e.1
    · simp [h, Ne.symm hne]
    · simp [h]

theorem lookup_eq_none {k : String} {es : List (String × α)} (h : ∀ e ∈ es, k < e.1) :
    es.lookup k = none := by
  refine List.lookup_eq_none_iff.2 fun e he => ?_
  have : k ≠ e.1 := fun hk => String.lt_irrefl _ (hk ▸ h e he)
  simpa using this

@[simp] theorem get?_empty (k : String) : (∅ : Table α).get? k = none := rfl

@[simp] theorem get?_insert (t : Table α) (k : String) (a : α) (j : String) :
    (t.insert k a).get? j = if j = k then some a else t.get? j := lookup_put k a t.entries j

theorem mem_entries (t : Table α) (k : String) (a : α) : (k, a) ∈ t.entries ↔ t.get? k = some a := by
  obtain ⟨es, h⟩ := t
  simp only [get?]
  induction es with
  | nil => simp
  | cons e es ih =>
    have ⟨he, hes⟩ := List.pairwise_cons.1 h
    rw [lookup_cons_ite, List.mem_cons]
    by_cases hk : k = e.1
    · have : (k, a) ∉ es := fun ha => String.lt_irrefl _ (hk ▸ he _ ha)
      simp [hk ▸ this, hk, Prod.ext_iff, eq_comm]
    · simp [hk, Prod.ext_iff, ih hes]

@[simp] theorem get?_erase (t : Table α) (k j : String) :
    (t.erase k).get? j = if j = k then none else t.get? j := by
  refine Option.ext fun a => ?_
  rw [← mem_entries]
  by_cases h : j = k <;> simp [erase, h, mem_entries]

theorem ext_get? {t u : Table α} (h : ∀ k, t.get? k = u.get? k) : t = u := by
  obtain ⟨es, hes⟩ := t
  obtain ⟨ds, hds⟩ := u
  refine Table.ext ?_
  simp only [get?] at h ⊢
  induction es generalizing ds with
  | nil =>
    cases ds with
    | nil => rfl
    | cons d ds => simpa [lookup_cons_ite] using h d.1
  | cons e es ih =>
    have ⟨he, hes⟩ := List.pairwise_cons.1 hes
    cases ds with
    | nil => simpa [lookup_cons_ite] using h e.1
    | cons d ds =>
      have ⟨hd, hds⟩ := List.pairwise_cons.1 hds
      have least {k : String} {c : String × α} {cs : List (String × α)} (hlt : k < c.1)
          (hc : ∀ b ∈ cs, c.1 < b.1) : (c :: cs).lookup k = none :=
        lookup_eq_none fun b hb => (List.mem_cons.1 hb).elim (fun hb => hb ▸ hlt)
          fun hb => String.lt_trans hlt (hc b hb)
      have hle : ¬ e.1 < d.1 := fun hlt => by
        simpa [least hlt hd, lookup_cons_ite] using h e.1
      have hge : ¬ d.1 < e.1 := fun hlt => by
        simpa [least hlt he, lookup_cons_ite] using h d.1
      have hk : e.1 = d.1 := String.le_antisymm (String.not_lt.1 hge) (String.not_lt.1 hle)
      have hv : e.2 = d.2 := by simpa [lookup_cons_ite, hk] using h d.1
      rw [Prod.ext hk hv, ih hes ds hds fun k => ?_]
      by_cases hke : k = e.1
      · rw [hke, lookup_eq_none he, hk, lookup_eq_none hd]
      · simpa [lookup_cons_ite, hke, hk ▸ hke] using h k

end Table

end Targeting
