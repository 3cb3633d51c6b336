import CodeOutline.Document.Json.Draft
import CodeOutline.Proofs.Text.Raw

/-! # Drafts that are written

A draft whose raw texts are all texts has a value, and it is written as this value is. Any other
draft is written up to the first raw text that is none.
-/

namespace CodeOutline.Document.Draft

variable {d : Draft} {ds : List Draft} {es : List (String × Draft)} {v : Value}
  {vs : List Value} {ves : List (String × Value)} {key : String}

theorem plain_append (cs ds : List Char) : plain cs ++ plain ds = plain (cs ++ ds) :=
  List.map_append.symm

theorem itemValues?_cons (h : itemValues? (d :: ds) = some vs) :
    ∃ w ws, d.value? = some w ∧ itemValues? ds = some ws ∧ vs = w :: ws := by
  rw [itemValues?] at h
  cases hd : d.value? <;> cases hds : itemValues? ds <;> rw [hd, hds] at h <;> cases h
  exact ⟨_, _, rfl, rfl, rfl⟩

theorem entryValues?_cons (h : entryValues? ((key, d) :: es) = some ves) :
    ∃ w ws, d.value? = some w ∧ entryValues? es = some ws ∧ ves = (key, w) :: ws := by
  rw [entryValues?] at h
  cases hd : d.value? <;> cases hes : entryValues? es <;> rw [hd, hes] at h <;> cases h
  exact ⟨_, _, rfl, rfl, rfl⟩

theorem entryValues?_cons_eq (hd : d.value? = some v) (hes : entryValues? es = some ves) :
    entryValues? ((key, d) :: es) = some ((key, v) :: ves) := by
  rw [entryValues?, hd, hes]

mutual

theorem indented_of_value? (level : Nat) (d : Draft) (v : Value) (h : d.value? = some v) :
    d.indented level = plain (Json.indented level v) := by
  match d with
  | .value w =>
    rw [value?] at h
    cases h
    rw [indented]
  | .raw r =>
    rw [value?, Option.map_eq_some_iff] at h
    obtain ⟨s, hs, rfl⟩ := h
    rw [indented, hs]
    rfl
  | .list [] =>
    cases h
    rfl
  | .list (d :: ds) =>
    rw [value?, Option.map_eq_some_iff] at h
    obtain ⟨vs, hs, rfl⟩ := h
    obtain ⟨w, ws, hw, hws, rfl⟩ := itemValues?_cons hs
    rw [indented, Json.indented, indented_of_value? _ d w hw,
      indentedItems_of_values? level ds ws hws, plain_append, plain_append]
    simp
  | .table [] =>
    cases h
    rfl
  | .table ((key, d) :: es) =>
    rw [value?, Option.map_eq_some_iff] at h
    obtain ⟨vs, hs, rfl⟩ := h
    obtain ⟨w, ws, hw, hws, rfl⟩ := entryValues?_cons hs
    rw [indented, Json.indented, indented_of_value? _ d w hw,
      indentedEntries_of_values? level es ws hws, plain_append, plain_append]
    simp

theorem indentedItems_of_values? (level : Nat) (ds : List Draft) (vs : List Value)
    (h : itemValues? ds = some vs) :
    indentedItems level ds = plain (Json.indentedItems level vs) := by
  match ds with
  | [] =>
    cases h
    rfl
  | d :: ds =>
    obtain ⟨w, ws, hw, hws, rfl⟩ := itemValues?_cons h
    rw [indentedItems, Json.indentedItems, indented_of_value? _ d w hw,
      indentedItems_of_values? level ds ws hws, plain_append, plain_append]
    simp

theorem indentedEntries_of_values? (level : Nat) (es : List (String × Draft))
    (ves : List (String × Value)) (h : entryValues? es = some ves) :
    indentedEntries level es = plain (Json.indentedEntries level ves) := by
  match es with
  | [] =>
    cases h
    rfl
  | (key, d) :: es =>
    obtain ⟨w, ws, hw, hws, rfl⟩ := entryValues?_cons h
    rw [indentedEntries, Json.indentedEntries, indented_of_value? _ d w hw,
      indentedEntries_of_values? level es ws hws, plain_append, plain_append]
    simp

end

theorem prettyText_of_value? (h : d.value? = some v) : d.prettyText = .ok (Json.prettyText v) := by
  rw [prettyText, indented_of_value? 0 d v h, plain]
  simp only [Utf8.mapM_id_map_some]
  rfl

theorem prettyText_of_stop {cs : List Char} {rest : List (Option Char)}
    (h : d.indented 0 = plain cs ++ none :: rest) : d.prettyText = .error (String.ofList cs) := by
  have hnone : (plain cs ++ none :: rest).mapM id = none := by
    induction cs with
    | nil => rfl
    | cons c cs ih => simp_all [plain]
  have hstart : ((plain cs ++ none :: rest).takeWhile Option.isSome).filterMap id = cs := by
    rw [List.takeWhile_append_of_pos (by simp [plain]), List.takeWhile_cons_of_neg (by simp)]
    simp [plain, List.filterMap_map]
  rw [prettyText, h, hnone, hstart]

/-! ## Where writing stops -/

theorem none_notMem_plain (cs : List Char) : none ∉ plain cs := by
  simp [plain]

theorem none_mem_indentedItems {level : Nat} :
    none ∈ indentedItems level ds ↔ ∃ d ∈ ds, none ∈ d.indented (level + 1) := by
  induction ds with
  | nil => simp [indentedItems, none_notMem_plain]
  | cons d ds ih =>
    rw [indentedItems, List.mem_append, List.mem_append, ih]
    simp [none_notMem_plain]

theorem none_mem_indentedEntries {level : Nat} :
    none ∈ indentedEntries level es ↔ ∃ e ∈ es, none ∈ e.2.indented (level + 1) := by
  induction es with
  | nil => simp [indentedEntries, none_notMem_plain]
  | cons e es ih =>
    rw [indentedEntries, List.mem_append, List.mem_append, ih]
    simp [none_notMem_plain]

theorem none_notMem_indented_value (level : Nat) (v : Value) : none ∉ (value v).indented level := by
  rw [indented]
  exact none_notMem_plain _

theorem none_mem_indented_raw {level : Nat} {r : RawText} :
    none ∈ (raw r).indented level ↔ r.text? = none := by
  rw [indented]
  cases r.text? <;> simp [none_notMem_plain]

theorem none_mem_indented_list {level : Nat} :
    none ∈ (list ds).indented level ↔ ∃ d ∈ ds, none ∈ d.indented (level + 1) := by
  cases ds with
  | nil => simp [indented, none_notMem_plain]
  | cons d ds =>
    rw [indented, List.mem_append, List.mem_append, none_mem_indentedItems]
    simp [none_notMem_plain]

theorem none_mem_indented_table {level : Nat} :
    none ∈ (table es).indented level ↔ ∃ e ∈ es, none ∈ e.2.indented (level + 1) := by
  cases es with
  | nil => simp [indented, none_notMem_plain]
  | cons e es =>
    rw [indented, List.mem_append, List.mem_append, none_mem_indentedEntries]
    simp [none_notMem_plain]

/-- A draft is written to the end unless there is a place to stop at. -/
theorem exists_prettyText_iff : (∃ text, d.prettyText = .ok text) ↔ none ∉ d.indented 0 := by
  rw [prettyText]
  generalize d.indented 0 = cs
  have hm : cs.mapM id = none ↔ none ∈ cs := by
    induction cs with
    | nil => simp
    | cons c cs ih =>
      cases c with
      | none => simp
      | some c =>
        rw [List.mapM_cons, List.mem_cons, ← ih]
        cases cs.mapM id <;> simp
  cases hcs : cs.mapM id with
  | none => simp [hm.mp hcs]
  | some cs' =>
    have hn : none ∉ cs := fun h => by cases hcs.symm.trans (hm.mpr h)
    simp [hn]

theorem value?_list {α : Type} {draft : α → Draft} {value : α → Value} {xs : List α}
    (h : ∀ x ∈ xs, (draft x).value? = some (value x)) :
    (Draft.list (xs.map draft)).value? = some (.list (xs.map value)) := by
  have hs : itemValues? (xs.map draft) = some (xs.map value) := by
    induction xs with
    | nil => rfl
    | cons x xs ih =>
      rw [List.forall_mem_cons] at h
      rw [List.map_cons, itemValues?, h.1, ih h.2]
      rfl
  rw [value?, hs]
  rfl

end CodeOutline.Document.Draft
