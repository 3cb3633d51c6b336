import CodeOutline.Dictionary

/-! # Looking up

What a dictionary has under a key is the value of its only entry with that key. Putting a value in
changes what is found under its own key and nothing else.
-/

namespace CodeOutline.Dictionary

variable {α : Type} {d : Dictionary α} {es : List (String × α)} {key other : String} {value : α}

theorem find?_insertEntry (key : String) (value : α) (es : List (String × α)) (other : String) :
    ((insertEntry key value es).find? (·.1 == other)).map (·.2) =
      if key = other then some value else (es.find? (·.1 == other)).map (·.2) := by
  induction es with
  | nil => by_cases h : key = other <;> simp [insertEntry, h]
  | cons e es ih =>
    rw [insertEntry]
    split
    · by_cases h : key = other <;> simp [h]
    split
    · rename_i he
      subst he
      by_cases h : e.1 = other <;> simp [h]
    · rename_i he
      rw [List.find?_cons, List.find?_cons]
      by_cases h : e.1 = other
      · simp [h, show key ≠ other from fun hk => he (hk.trans h.symm)]
      · rw [beq_false_of_ne h, ih]

theorem insertEntry_append (h : ∀ e ∈ es, e.1 < key) (value : α) :
    insertEntry key value es = es ++ [(key, value)] := by
  induction es with
  | nil => rfl
  | cons e es ih =>
    rw [List.forall_mem_cons] at h
    have hlt : ¬ key < e.1 := fun hk => String.lt_irrefl key (String.lt_trans hk h.1)
    have hne : key ≠ e.1 := fun hk => String.lt_irrefl key (hk ▸ h.1)
    rw [insertEntry, if_neg hlt, if_neg hne, ih h.2, List.cons_append]

theorem entries_foldl_insert (h : (d.entries ++ es).Pairwise fun a b => a.1 < b.1) :
    (es.foldl (fun d e => d.insert e.1 e.2) d).entries = d.entries ++ es := by
  induction es generalizing d with
  | nil => rw [List.foldl_nil, List.append_nil]
  | cons e es ih =>
    have hlast : ∀ x ∈ d.entries, x.1 < e.1 := fun x hx =>
      (List.pairwise_append.mp h).2.2 x hx e List.mem_cons_self
    have hd : (d.insert e.1 e.2).entries = d.entries ++ [e] := insertEntry_append hlast e.2
    rw [List.foldl_cons, ih, hd, List.append_assoc, List.singleton_append]
    rwa [hd, List.append_assoc, List.singleton_append]

theorem ofList_entries (d : Dictionary α) : ofList d.entries = d := by
  have h : (ofList d.entries).entries = d.entries := entries_foldl_insert (d := empty) d.sorted
  generalize ofList d.entries = d' at h
  cases d'
  cases d
  subst h
  rfl

theorem find?_insert (d : Dictionary α) (key : String) (value : α) (other : String) :
    (d.insert key value).find? other = if key = other then some value else d.find? other :=
  find?_insertEntry key value d.entries other

theorem key_mem_insert {e : String × α} (h : e ∈ (d.insert key value).entries) :
    e.1 = key ∨ e ∈ d.entries := by
  rcases mem_insertEntry h with rfl | h
  · exact Or.inl rfl
  · exact Or.inr h

theorem key_ne_of_split {u v : List (String × α)} {e : String × α} (h : d.entries = u ++ e :: v) :
    ∀ x ∈ v, x.1 ≠ e.1 := by
  have hs := d.sorted
  rw [h, List.pairwise_append, List.pairwise_cons] at hs
  exact fun x hx he => String.lt_irrefl e.1 (he ▸ hs.2.1.1 x hx)

theorem mem_of_find? (h : d.find? key = some value) : (key, value) ∈ d.entries := by
  obtain ⟨e, he, rfl⟩ := Option.map_eq_some_iff.mp h
  obtain rfl : e.1 = key := by simpa using List.find?_some he
  exact List.mem_of_find?_eq_some he

theorem find?_of_mem (h : (key, value) ∈ d.entries) : d.find? key = some value := by
  obtain ⟨u, v, he⟩ := List.append_of_mem h
  have hs := d.sorted
  rw [he, List.pairwise_append] at hs
  have hu : ∀ e ∈ u, ¬ (e.1 == key) = true := by
    intro e hm hk
    have hlt := hs.2.2 e hm (key, value) List.mem_cons_self
    rw [beq_iff_eq.mp hk] at hlt
    exact String.lt_irrefl key hlt
  rw [find?, he, List.find?_append, List.find?_eq_none.mpr hu]
  simp

theorem find?_eq_some_iff : d.find? key = some value ↔ (key, value) ∈ d.entries :=
  ⟨mem_of_find?, find?_of_mem⟩

theorem mem_keys_iff : key ∈ d.keys ↔ ∃ value, d.find? key = some value := by
  simp [keys, find?_eq_some_iff]

theorem key_ne_of_find? (h : d.find? key = none) : ∀ e ∈ d.entries, e.1 ≠ key := by
  intro e he
  have := List.find?_eq_none.mp (Option.map_eq_none_iff.mp h) e he
  simpa using this

end CodeOutline.Dictionary
