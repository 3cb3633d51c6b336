import CodeOutline.Proofs.Document.Json.Scalar

/-! # Reading layouts

A value that a JSON text can hold is read back from its indented text, whatever level it stands at
and whatever comes after it. The fuel that is set from the length of the text is enough.
-/

namespace CodeOutline.Document

/-- A value that a JSON text can hold. -/
inductive Value.Exchangeable : Value → Prop
  | null : Exchangeable .null
  | bool (b : Bool) : Exchangeable (.bool b)
  | integer (n : Int) : fitsInteger n = true → Exchangeable (.integer n)
  | text (s : String) : Exchangeable (.text s)
  | list (items : List Value) : (∀ v ∈ items, Exchangeable v) → Exchangeable (.list items)
  | table (entries : List (String × Value)) : (∀ e ∈ entries, Exchangeable e.2) →
    Exchangeable (.table entries)

@[simp] theorem Value.exchangeable_text (s : String) : Exchangeable (.text s) := .text s

@[simp] theorem Value.exchangeable_integer {n : Int} :
    Exchangeable (.integer n) ↔ fitsInteger n = true :=
  ⟨fun h => by cases h; assumption, .integer n⟩

@[simp] theorem Value.exchangeable_list {items : List Value} :
    Exchangeable (.list items) ↔ ∀ v ∈ items, Exchangeable v :=
  ⟨fun h => by cases h; assumption, .list items⟩

@[simp] theorem Value.exchangeable_table {entries : List (String × Value)} :
    Exchangeable (.table entries) ↔ ∀ e ∈ entries, Exchangeable e.2 :=
  ⟨fun h => by cases h; assumption, .table entries⟩

namespace Json

variable {c : Char} {rest u : List Char} {level fuel : Nat} {v item : Value} {items : List Value}
  {key : String} {entries : List (String × Value)}

theorem skipSpace_of_head? (h : ∀ c ∈ u.head?, isSpace c = false) : skipSpace u = u := by
  cases u with
  | nil => rfl
  | cons c u => simp [skipSpace, h c rfl]

theorem skipSpace_append {w : List Char} (hw : ∀ c ∈ w, isSpace c = true)
    (h : ∀ c ∈ u.head?, isSpace c = false) : skipSpace (w ++ u) = u := by
  rw [skipSpace, List.dropWhile_append_of_pos hw]
  exact skipSpace_of_head? h

theorem ne_of_isDigit {d : Char} (h : isDigit c = true) (hd : isDigit d = false) : c ≠ d := by
  rintro rfl
  rw [hd] at h
  cases h

theorem isSpace_of_isDigit (h : isDigit c = true) : isSpace c = false := by
  simp only [isSpace, Bool.or_eq_false_iff, decide_eq_false_iff_not]
  exact ⟨⟨⟨ne_of_isDigit h (by decide), ne_of_isDigit h (by decide)⟩,
    ne_of_isDigit h (by decide)⟩, ne_of_isDigit h (by decide)⟩

theorem isSpace_of_mem_newline (h : c ∈ newline level) : isSpace c = true := by
  rcases List.mem_cons.mp h with rfl | h
  · rfl
  · obtain rfl := List.eq_of_mem_replicate h
    rfl

theorem skipSpace_newline (h : ∀ c ∈ u.head?, isSpace c = false) :
    skipSpace (newline level ++ u) = u :=
  skipSpace_append (fun _ => isSpace_of_mem_newline) h

theorem endsNumber_newline (level : Nat) (u : List Char) : EndsNumber (newline level ++ u) := by
  intro c hc
  obtain rfl : '\n' = c := by simpa [newline] using hc
  decide

theorem endsNumber_comma (u : List Char) : EndsNumber (',' :: u) := by
  intro c hc
  obtain rfl : ',' = c := by simpa using hc
  decide

/-- A value is read back from its text, which starts with a character that neither is a space nor
closes a list. -/
structure IsRead (v : Value) : Prop where
  starts : ∀ level, ∃ x u, indented level v = x :: u ∧ isSpace x = false ∧ x ≠ ']'
  reads : ∀ level fuel rest, (indented level v).length ≤ fuel → EndsNumber rest →
    parseValue fuel (indented level v ++ rest) = some (v, rest)

theorem IsRead.head (h : IsRead v) (level : Nat) (u : List Char) :
    ∀ c ∈ (indented level v ++ u).head?, isSpace c = false := by
  obtain ⟨x, w, hx, hs, _⟩ := h.starts level
  intro c hc
  rw [hx] at hc
  obtain rfl : x = c := by simpa using hc
  exact hs

theorem exists_fuel (hu : u ≠ []) (h : u.length ≤ fuel) : ∃ f, fuel = f + 1 :=
  Nat.exists_eq_add_of_le' (Nat.le_trans (List.length_pos_iff.mpr hu) h)

/-! ## Scalars -/

theorem isRead_null : IsRead .null where
  starts _ := ⟨'n', ['u', 'l', 'l'], rfl, by decide, by decide⟩
  reads _ _ _ h _ := by
    obtain ⟨f, rfl⟩ := exists_fuel (List.cons_ne_nil 'n' ['u', 'l', 'l']) h
    rfl

theorem isRead_bool (b : Bool) : IsRead (.bool b) where
  starts _ := by cases b <;> exact ⟨_, _, rfl, by decide, by decide⟩
  reads _ _ _ h _ := by
    cases b with
    | true =>
      obtain ⟨f, rfl⟩ := exists_fuel (List.cons_ne_nil 't' ['r', 'u', 'e']) h
      rfl
    | false =>
      obtain ⟨f, rfl⟩ := exists_fuel (List.cons_ne_nil 'f' ['a', 'l', 's', 'e']) h
      rfl

theorem isRead_text (s : String) : IsRead (.text s) where
  starts _ := ⟨'"', _, rfl, by decide, by decide⟩
  reads level _ rest h _ := by
    have ht : indented level (.text s) = quote s := rfl
    rw [ht] at h ⊢
    obtain ⟨f, rfl⟩ := exists_fuel (List.cons_ne_nil '"' _) h
    obtain ⟨u, hu, hp⟩ := parseText_quote s rest
    rw [hu, parseValue]
    simp only [hp]

theorem isRead_integer {n : Int} (hn : Value.fitsInteger n = true) : IsRead (.integer n) := by
  obtain ⟨x, u, hxu, hx⟩ := toString_head n
  have ht : ∀ level, indented level (.integer n) = x :: u := fun level => hxu
  have hs : isSpace x = false ∧ x ≠ ']' := by
    rcases hx with rfl | hx
    · decide
    · exact ⟨isSpace_of_isDigit hx, ne_of_isDigit hx (by decide)⟩
  refine ⟨fun level => ⟨x, u, ht level, hs.1, hs.2⟩, fun level fuel rest h hrest => ?_⟩
  rw [ht] at h ⊢
  obtain ⟨f, rfl⟩ := exists_fuel (List.cons_ne_nil x u) h
  rw [List.cons_append, parseValue_of_number hx, ← List.cons_append, ← hxu,
    parseNumber_toString hn hrest]

/-! ## Lists -/

theorem parseItems_indented (hi : IsRead item) (hs : ∀ v ∈ items, IsRead v) (done : List Value)
    (h : (indented (level + 1) item ++ indentedItems level items).length ≤ fuel) :
    parseItems fuel done (indented (level + 1) item ++ (indentedItems level items ++ rest)) =
      some (.list (done.reverse ++ item :: items), rest) := by
  induction items generalizing item done fuel with
  | nil =>
    rw [indentedItems] at h ⊢
    obtain ⟨f, rfl⟩ := exists_fuel (by simp [newline]) h
    have hlen : (indented (level + 1) item).length ≤ f := by
      simp only [List.length_append, List.length_singleton] at h
      omega
    rw [parseItems, List.append_assoc, List.singleton_append,
      hi.reads _ _ _ hlen (endsNumber_newline level _)]
    simp only
    rw [skipSpace_newline (by simp; decide)]
    simp
  | cons next items ih =>
    rw [indentedItems] at h ⊢
    obtain ⟨f, rfl⟩ := exists_fuel (by simp) h
    simp only [List.length_append, List.length_cons] at h
    have hnext := hs next List.mem_cons_self
    have hcomma : ∀ u, skipSpace (',' :: u) = ',' :: u :=
      fun u => skipSpace_of_head? (by simp; decide)
    rw [parseItems, List.cons_append, hi.reads _ _ _ (by omega) (endsNumber_comma _)]
    simp only [hcomma, List.append_assoc]
    rw [skipSpace_newline (hnext.head _ _),
      ih hnext (fun v hv => hs v (List.mem_cons_of_mem next hv)) (item :: done)
        (by simp only [List.length_append]; omega),
      List.reverse_cons, List.append_assoc, List.singleton_append]

theorem isRead_list (h : ∀ v ∈ items, IsRead v) : IsRead (.list items) := by
  cases items with
  | nil =>
    refine ⟨fun _ => ⟨'[', [']'], rfl, by decide, by decide⟩, fun level fuel rest hf _ => ?_⟩
    obtain ⟨f, rfl⟩ := exists_fuel (List.cons_ne_nil '[' [']']) hf
    rfl
  | cons item items =>
    have hi := h item List.mem_cons_self
    refine ⟨fun level => ⟨'[', _, by rw [indented], by decide, by decide⟩,
      fun level fuel rest hf _ => ?_⟩
    rw [indented] at hf ⊢
    obtain ⟨f, rfl⟩ := exists_fuel (List.cons_ne_nil '[' _) hf
    obtain ⟨x, u, hx, _, hb⟩ := hi.starts (level + 1)
    simp only [List.length_cons, List.length_append] at hf
    have hitems : parseItems f [] (indented (level + 1) item ++
        (indentedItems level items ++ rest)) = some (.list (item :: items), rest) :=
      parseItems_indented hi (fun v hv => h v (List.mem_cons_of_mem item hv)) []
        (by simp only [List.length_append]; omega)
    rw [List.cons_append, parseValue, List.append_assoc, List.append_assoc,
      skipSpace_newline (hi.head _ _)]
    rw [hx, List.cons_append] at hitems ⊢
    split
    · rename_i heq
      exact absurd (List.cons.inj heq).1 hb
    · exact hitems

/-! ## Tables -/

/-- The text of an entry. -/
def entryText (level : Nat) (e : String × Value) : List Char :=
  quote e.1 ++ ':' :: ' ' :: indented (level + 1) e.2

theorem parseEntries_entryText {e : String × Value} (he : IsRead e.2)
    (done : List (String × Value)) (hrest : EndsNumber rest)
    (h : (entryText level e).length ≤ fuel) :
    parseEntries (fuel + 1) done (entryText level e ++ rest) =
      match skipSpace rest with
      | ',' :: rest => parseEntries fuel (e :: done) (skipSpace rest)
      | '\x7d' :: rest => some (.table (e :: done).reverse, rest)
      | _ => none := by
  obtain ⟨key, value⟩ := e
  rw [entryText] at h ⊢
  obtain ⟨u, hu, hp⟩ := parseText_quote key
    (':' :: ' ' :: (indented (level + 1) value ++ rest))
  simp only [List.length_append, List.length_cons] at h
  have hcolon : ∀ u, skipSpace (':' :: u) = ':' :: u :=
    fun u => skipSpace_of_head? (by simp; decide)
  have hspace : skipSpace (' ' :: (indented (level + 1) value ++ rest)) =
      indented (level + 1) value ++ rest :=
    skipSpace_append (w := [' ']) (by simp; decide) (he.head _ _)
  simp only [List.append_assoc, List.cons_append]
  rw [hu, parseEntries]
  simp only [hp, hcolon, hspace]
  have hvalue : parseValue fuel (indented (level + 1) value ++ rest) = some (value, rest) :=
    he.reads _ _ _ (by dsimp only; omega) hrest
  generalize parseValue fuel (indented (level + 1) value ++ rest) = p at hvalue ⊢
  subst hvalue
  rfl

theorem indentedEntries_cons (level : Nat) (e : String × Value) :
    indentedEntries level (e :: entries) =
      ',' :: (newline (level + 1) ++ (entryText level e ++ indentedEntries level entries)) := by
  obtain ⟨key, value⟩ := e
  rw [indentedEntries, entryText]
  simp only [List.append_assoc, List.cons_append]

theorem entryText_head (level : Nat) (e : String × Value) (u : List Char) :
    ∃ w, entryText level e ++ u = '"' :: w :=
  ⟨_, rfl⟩

theorem entryText_opens (level : Nat) (e : String × Value) (u : List Char) :
    ∀ c ∈ (entryText level e ++ u).head?, isSpace c = false := by
  obtain ⟨w, hw⟩ := entryText_head level e u
  rw [hw]
  simp
  decide

theorem parseEntries_indented {e : String × Value} (he : IsRead e.2)
    (hs : ∀ e ∈ entries, IsRead e.2) (done : List (String × Value))
    (h : (entryText level e ++ indentedEntries level entries).length ≤ fuel) :
    parseEntries fuel done (entryText level e ++ (indentedEntries level entries ++ rest)) =
      some (.table (done.reverse ++ e :: entries), rest) := by
  induction entries generalizing e done fuel with
  | nil =>
    rw [indentedEntries] at h ⊢
    obtain ⟨f, rfl⟩ := exists_fuel (by simp [newline]) h
    simp only [List.length_append, List.length_singleton] at h
    rw [List.append_assoc, List.singleton_append,
      parseEntries_entryText he done (endsNumber_newline level _) (by omega),
      skipSpace_newline (by simp; decide)]
    simp
  | cons next entries ih =>
    rw [indentedEntries_cons] at h ⊢
    obtain ⟨f, rfl⟩ := exists_fuel (by simp) h
    simp only [List.length_append, List.length_cons] at h
    rw [List.cons_append, parseEntries_entryText he done (endsNumber_comma _) (by omega),
      skipSpace_of_head? (by simp; decide)]
    simp only [List.append_assoc]
    rw [skipSpace_newline (entryText_opens level next _),
      ih (hs next List.mem_cons_self) (fun e he => hs e (List.mem_cons_of_mem next he)) (e :: done)
        (by simp only [List.length_append]; omega),
      List.reverse_cons, List.append_assoc, List.singleton_append]

theorem isRead_table (h : ∀ e ∈ entries, IsRead e.2) : IsRead (.table entries) := by
  cases entries with
  | nil =>
    refine ⟨fun _ => ⟨'\x7b', ['\x7d'], rfl, by decide, by decide⟩, fun level fuel rest hf _ => ?_⟩
    obtain ⟨f, rfl⟩ := exists_fuel (List.cons_ne_nil '\x7b' ['\x7d']) hf
    rfl
  | cons e entries =>
    have ht : ∀ level, indented level (.table (e :: entries)) =
        '\x7b' :: (newline (level + 1) ++
          (entryText level e ++ indentedEntries level entries)) := by
      intro level
      obtain ⟨key, value⟩ := e
      rw [indented, entryText]
      simp only [List.append_assoc, List.cons_append]
    refine ⟨fun level => ⟨'\x7b', _, ht level, by decide, by decide⟩,
      fun level fuel rest hf _ => ?_⟩
    rw [ht] at hf ⊢
    obtain ⟨f, rfl⟩ := exists_fuel (List.cons_ne_nil '\x7b' _) hf
    simp only [List.length_cons, List.length_append] at hf
    have hentries : parseEntries f [] (entryText level e ++
        (indentedEntries level entries ++ rest)) = some (.table (e :: entries), rest) :=
      parseEntries_indented (h e List.mem_cons_self)
        (fun e' he' => h e' (List.mem_cons_of_mem e he')) []
        (by simp only [List.length_append]; omega)
    rw [List.cons_append, parseValue, List.append_assoc, List.append_assoc,
      skipSpace_newline (entryText_opens level e _)]
    obtain ⟨w, hw⟩ := entryText_head level e (indentedEntries level entries ++ rest)
    rw [hw] at hentries ⊢
    exact hentries

/-! ## Values -/

theorem isRead_of_exchangeable (h : v.Exchangeable) : IsRead v := by
  induction h with
  | null => exact isRead_null
  | bool b => exact isRead_bool b
  | integer n hn => exact isRead_integer hn
  | text s => exact isRead_text s
  | list items _ ih => exact isRead_list ih
  | table entries _ ih => exact isRead_table ih

/-- The indented text of a value writes the value, and spaces after it do not matter. -/
theorem parse?_prettyText_append (h : v.Exchangeable) {spaces : String}
    (hs : ∀ c ∈ spaces.toList, isSpace c = true) : parse? (prettyText v ++ spaces) = some v := by
  have hv := isRead_of_exchangeable h
  have hends : EndsNumber spaces.toList := by
    intro c hc
    have hc := hs c (List.mem_of_head? hc)
    simp only [isSpace, Bool.or_eq_true, decide_eq_true_eq] at hc
    rcases hc with ((rfl | rfl) | rfl) | rfl <;> decide
  have hrest : skipSpace spaces.toList = [] := by
    have := skipSpace_append (u := []) hs (by simp)
    rwa [List.append_nil] at this
  rw [parse?, prettyText, String.toList_append, String.toList_ofList, parseChars?,
    skipSpace_of_head? (hv.head 0 _), hv.reads 0 _ _ (by simp; omega) hends]
  simp only [hrest]
  rfl

end Json

end CodeOutline.Document
