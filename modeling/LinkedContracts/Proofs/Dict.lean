import LinkedContracts.Dict

/-! # Dictionaries in order

    Putting, erasing and filtering keep the keys in ascending order, and in a
    dictionary in order what is found at a key is what is listed with it. -/

namespace LinkedContracts

namespace Dict

variable {α β : Type} {d : Dict α} {key : String} {value : α}

/-! ## Order -/

instance (d : Dict α) : Decidable d.Sorted :=
  inferInstanceAs (Decidable ((keys d).Pairwise (· < ·)))

theorem sorted_nil : Sorted ([] : Dict α) := List.Pairwise.nil

theorem sorted_cons {k : String} {v : α} {rest : Dict α} :
    Sorted ((k, v) :: rest) ↔ (∀ p ∈ rest, k < p.1) ∧ Sorted rest := by
  simp [Sorted, keys]

/-- Keys of a part are in order. -/
theorem Sorted.sublist {part : Dict α} (h : Sorted d) (hpart : part.Sublist d) :
    Sorted part :=
  List.Pairwise.sublist (hpart.map Prod.fst) h

theorem Sorted.filter (h : Sorted d) (p : String × α → Bool) :
    Sorted (d.filter p) :=
  h.sublist List.filter_sublist

theorem erase_sublist (d : Dict α) (key : String) : (erase d key).Sublist d := by
  induction d with
  | nil => exact .refl _
  | cons p rest ih =>
      obtain ⟨k, v⟩ := p
      unfold erase
      split
      · exact List.sublist_cons_self _ _
      · exact ih.cons_cons _

/-- Leaving out one key does not touch another. -/
theorem find?_erase_of_ne (d : Dict α) {key other : String} (h : key ≠ other) :
    find? (Dict.erase d key) other = find? d other := by
  induction d with
  | nil => rfl
  | cons p rest ih =>
      obtain ⟨k, v⟩ := p
      unfold Dict.erase
      split
      · next hk => subst hk; simp [find?, h]
      · simp only [find?, ih]

theorem Sorted.erase (h : Sorted d) (key : String) : Sorted (Dict.erase d key) :=
  h.sublist (erase_sublist d key)

/-- What is listed after putting a value was put or listed before. -/
theorem mem_of_mem_insert {p : String × α} (h : p ∈ insert d key value) :
    p = (key, value) ∨ p ∈ d := by
  induction d with
  | nil => exact .inl (List.mem_singleton.mp h)
  | cons q rest ih =>
      obtain ⟨k, v⟩ := q
      unfold insert at h
      split at h
      · exact (List.mem_cons.mp h).imp_right (List.mem_cons_of_mem _)
      · split at h
        · exact List.mem_cons.mp h
        · rcases List.mem_cons.mp h with rfl | h
          · exact .inr List.mem_cons_self
          · exact (ih h).imp_right (List.mem_cons_of_mem _)

theorem Sorted.insert (h : Sorted d) (key : String) (value : α) :
    Sorted (Dict.insert d key value) := by
  induction d with
  | nil => simp [Dict.insert, Sorted, keys]
  | cons q rest ih =>
      obtain ⟨k, v⟩ := q
      obtain ⟨hk, hrest⟩ := sorted_cons.mp h
      unfold Dict.insert
      split
      · next heq => exact sorted_cons.mpr ⟨heq ▸ hk, hrest⟩
      · next hne =>
          split
          · next hlt =>
              refine sorted_cons.mpr ⟨fun p hp => ?_, h⟩
              rcases List.mem_cons.mp hp with rfl | hp
              · exact hlt
              · exact String.lt_trans hlt (hk p hp)
          · next hge =>
              refine sorted_cons.mpr ⟨fun p hp => ?_, ih hrest⟩
              rcases mem_of_mem_insert hp with rfl | hp
              · exact Std.lt_of_le_of_ne (String.not_lt.mp hge) hne
              · exact hk p hp

/-- What a dictionary made of pairs lists is one of the pairs. -/
theorem mem_of_mem_ofList {pairs : List (String × α)} {p : String × α}
    (h : p ∈ ofList pairs) : p ∈ pairs := by
  have foldl (pairs : List (String × α)) (d : Dict α) :
      p ∈ pairs.foldl (fun d p => Dict.insert d p.1 p.2) d → p ∈ pairs ∨ p ∈ d := by
    induction pairs generalizing d with
    | nil => exact .inr
    | cons q rest ih =>
        intro h
        rcases ih _ h with h | h
        · exact .inl (List.mem_cons_of_mem _ h)
        · rcases mem_of_mem_insert h with rfl | h
          · exact .inl List.mem_cons_self
          · exact .inr h
  exact (foldl pairs [] h).resolve_right List.not_mem_nil

/-- A dictionary made of pairs is in order. -/
theorem sorted_ofList (pairs : List (String × α)) : Sorted (ofList pairs) := by
  have foldl (d : Dict α) (h : Sorted d) :
      Sorted (pairs.foldl (fun d p => Dict.insert d p.1 p.2) d) := by
    induction pairs generalizing d with
    | nil => exact h
    | cons p rest ih => exact ih _ (h.insert p.1 p.2)
  exact foldl [] sorted_nil

/-! ## Looking up -/

theorem mem_of_find? (h : find? d key = some value) : (key, value) ∈ d := by
  induction d with
  | nil => cases h
  | cons p rest ih =>
      obtain ⟨k, v⟩ := p
      rw [find?_cons] at h
      split at h
      · next heq =>
          obtain rfl := Option.some.inj h
          exact heq ▸ List.mem_cons_self
      · exact List.mem_cons_of_mem _ (ih h)

/-- In order, what is listed is found. -/
theorem Sorted.find?_eq_some (h : Sorted d) :
    find? d key = some value ↔ (key, value) ∈ d := by
  refine ⟨mem_of_find?, fun hmem => ?_⟩
  induction d with
  | nil => cases hmem
  | cons p rest ih =>
      obtain ⟨k, v⟩ := p
      obtain ⟨hk, hrest⟩ := sorted_cons.mp h
      rw [find?_cons]
      rcases List.mem_cons.mp hmem with heq | hmem
      · obtain ⟨rfl, rfl⟩ := Prod.mk.inj heq
        rw [if_pos rfl]
      · have hne : k ≠ key := fun heq =>
          String.lt_irrefl key (heq ▸ hk (key, value) hmem)
        rw [if_neg hne, ih hrest hmem]

/-- What is listed after putting a value. -/
theorem Sorted.mem_insert (h : Sorted d) {p : String × α} :
    p ∈ Dict.insert d key value ↔ p = (key, value) ∨ p ∈ d ∧ p.1 ≠ key := by
  obtain ⟨k, v⟩ := p
  rw [← (h.insert key value).find?_eq_some, ← h.find?_eq_some]
  by_cases hk : key = k
  · subst hk
    simp [eq_comm]
  · rw [find?_insert_of_ne d value hk]
    simp [eq_comm, hk]

/-- What is found in a part is found in the whole, if it is in the part. -/
theorem Sorted.find?_filter (h : Sorted d) (p : String × α → Bool) (key : String) :
    find? (d.filter p) key = (find? d key).filter fun value => p (key, value) := by
  ext value
  rw [(h.filter p).find?_eq_some, List.mem_filter, Option.filter_eq_some_iff,
    h.find?_eq_some]

/-- Dictionaries in order are the same if the same is listed in them. -/
theorem Sorted.eq_of_mem_iff {e : Dict α} (hd : Sorted d) (he : Sorted e)
    (h : ∀ p, p ∈ d ↔ p ∈ e) : d = e := by
  induction d generalizing e with
  | nil => exact (List.eq_nil_iff_forall_not_mem.mpr fun p hp =>
      List.not_mem_nil ((h p).mpr hp)).symm
  | cons p d ih =>
      cases e with
      | nil => exact absurd ((h p).mp List.mem_cons_self) List.not_mem_nil
      | cons q e =>
          obtain ⟨hp, hd⟩ := sorted_cons.mp hd
          obtain ⟨hq, hrest⟩ := sorted_cons.mp he
          -- each head is the least, so that they are the same
          have heq : p = q := by
            rcases List.mem_cons.mp ((h p).mp List.mem_cons_self) with heq | hpe
            · exact heq
            · rcases List.mem_cons.mp ((h q).mpr List.mem_cons_self) with heq | hqd
              · exact heq.symm
              · exact absurd (hp q hqd) (String.lt_asymm (hq p hpe))
          subst heq
          congr 1
          refine ih hd hrest fun r => ⟨fun hr => ?_, fun hr => ?_⟩
          · rcases List.mem_cons.mp ((h r).mp (List.mem_cons_of_mem _ hr)) with rfl | hr'
            · exact absurd (hp r hr) (String.lt_irrefl r.1)
            · exact hr'
          · rcases List.mem_cons.mp ((h r).mpr (List.mem_cons_of_mem _ hr)) with rfl | hr'
            · exact absurd (hq r hr) (String.lt_irrefl r.1)
            · exact hr'

/-- Dictionaries in order are the same if the same is found in them. -/
theorem Sorted.eq_of_find? {e : Dict α} (hd : Sorted d) (he : Sorted e)
    (h : ∀ key, find? d key = find? e key) : d = e :=
  hd.eq_of_mem_iff he fun ⟨k, v⟩ => by
    rw [← hd.find?_eq_some, ← he.find?_eq_some, h]

/-- Of values put at one key the last one counts. -/
theorem insert_insert (d : Dict α) (key : String) (v w : α) :
    insert (insert d key v) key w = insert d key w := by
  induction d with
  | nil => simp [insert]
  | cons p rest ih =>
      obtain ⟨k, u⟩ := p
      by_cases hk : k = key
      · simp [insert, hk]
      by_cases hlt : key < k
      · simp [insert, hk, hlt]
      · simp [insert, hk, hlt, ih]

/-- Putting what is there changes nothing. -/
theorem Sorted.insert_eq_self (h : Sorted d) (hv : find? d key = some value) :
    Dict.insert d key value = d := by
  refine (h.insert key value).eq_of_find? h ?_
  intro other
  by_cases hkey : key = other
  · subst hkey
    rw [find?_insert_self, hv]
  · exact find?_insert_of_ne d value hkey

/-- Leaving out a key that was put where there was none changes nothing. -/
theorem erase_insert (h : find? d key = none) (value : α) :
    erase (insert d key value) key = d := by
  induction d with
  | nil => simp [insert, erase]
  | cons p rest ih =>
      obtain ⟨k, v⟩ := p
      rw [find?_cons] at h
      by_cases hk : k = key
      · rw [if_pos hk] at h
        cases h
      rw [if_neg hk] at h
      rw [insert, if_neg hk]
      by_cases hlt : key < k
      · rw [if_pos hlt, erase, if_pos rfl]
      · rw [if_neg hlt, erase, if_neg hk, ih h]

theorem find?_eq_none : find? d key = none ↔ key ∉ keys d := by
  induction d with
  | nil => simp [keys]
  | cons p rest ih =>
      obtain ⟨k, v⟩ := p
      rw [find?_cons]
      by_cases hk : k = key
      · simp [keys, hk]
      · simp only [keys, List.map_cons, List.mem_cons, if_neg hk]
        rw [ih]
        simp [keys, Ne.symm hk]

theorem mem_keys_cons {name : String} {p : String × α} :
    name ∈ keys (p :: d) ↔ name = p.1 ∨ name ∈ keys d :=
  List.mem_cons

theorem mem_keys : key ∈ keys d ↔ find? d key ≠ none := by
  rw [Ne, find?_eq_none, Decidable.not_not]

theorem mem_keys_insert {name : String} :
    name ∈ keys (insert d key value) ↔ name = key ∨ name ∈ keys d := by
  rw [mem_keys, mem_keys]
  by_cases hname : key = name
  · subst hname
    simp
  · rw [find?_insert_of_ne d value hname]
    simp [Ne.symm hname]

/-- The keys of a dictionary are those of the pairs it was made of. -/
theorem mem_keys_ofList {pairs : List (String × α)} {name : String} :
    name ∈ keys (ofList pairs) ↔ name ∈ pairs.map (·.1) := by
  have foldl (rest : List (String × α)) (d : Dict α) :
      name ∈ keys (rest.foldl (fun d p => insert d p.1 p.2) d)
        ↔ name ∈ keys d ∨ name ∈ rest.map (·.1) := by
    induction rest generalizing d with
    | nil => simp
    | cons p rest ih =>
        rw [List.foldl_cons, ih, mem_keys_insert, List.map_cons, List.mem_cons, or_assoc,
          or_left_comm]
  refine (foldl pairs []).trans ?_
  simp [keys]

/-- A key that was left out is not found. -/
theorem Sorted.find?_erase_self (h : Sorted d) (key : String) :
    find? (Dict.erase d key) key = none := by
  induction d with
  | nil => rfl
  | cons p rest ih =>
      obtain ⟨k, v⟩ := p
      obtain ⟨hfirst, hrest⟩ := sorted_cons.mp h
      unfold Dict.erase
      split
      next hk =>
        subst hk
        refine find?_eq_none.mpr fun hmem => ?_
        obtain ⟨p, hp, heq⟩ := List.mem_map.mp hmem
        exact absurd (hfirst p hp) (heq ▸ String.lt_irrefl p.1)
      next hk => rw [find?_cons, if_neg hk, ih hrest]

/-- What comes first matters only at its own key. -/
theorem find?_cons_congr {e : Dict α} {k : String} {v w : α}
    (hv : k = key → v = w) (h : find? d key = find? e key) :
    find? ((k, v) :: d) key = find? ((k, w) :: e) key := by
  rw [find?_cons, find?_cons]
  split
  · next hk => rw [hv hk]
  · exact h

/-- Pairs put at other keys do not touch a key. -/
theorem find?_foldl_insert {pairs : List (String × α)}
    (h : ∀ p ∈ pairs, p.1 ≠ key) :
    find? (pairs.foldl (fun d (k, v) => insert d k v) d) key = find? d key := by
  induction pairs generalizing d with
  | nil => rfl
  | cons p rest ih =>
      rw [List.foldl_cons, ih fun q hq => h q (List.mem_cons_of_mem _ hq)]
      exact find?_insert_of_ne d p.2 (h p List.mem_cons_self)

theorem Sorted.mapValues (h : Sorted d) (f : α → β) : Sorted (Dict.mapValues f d) := by
  have hkeys : keys (Dict.mapValues f d) = keys d := by
    simp [keys, Dict.mapValues]
  rw [Sorted, hkeys]
  exact h

/-- What is found among converted values is converted. -/
theorem find?_mapValues {β : Type} (f : α → β) (d : Dict α) (key : String) :
    find? (mapValues f d) key = (find? d key).map f := by
  induction d with
  | nil => rfl
  | cons p rest ih =>
      obtain ⟨k, v⟩ := p
      have hcons : mapValues f ((k, v) :: rest)
          = (k, f v) :: mapValues f rest := rfl
      rw [hcons, find?_cons, find?_cons, ih]
      split <;> rfl

/-- A value at a key after all others goes last. -/
theorem insert_last {rest : Dict α} (h : Sorted (d ++ (key, value) :: rest)) :
    insert d key value = d ++ [(key, value)] := by
  induction d with
  | nil => rfl
  | cons p d ih =>
      obtain ⟨k, v⟩ := p
      obtain ⟨hk, hd⟩ := sorted_cons.mp h
      have hlt : k < key := hk (key, value) (by simp)
      unfold insert
      rw [if_neg (by rintro rfl; exact String.lt_irrefl _ hlt),
        if_neg (String.lt_asymm hlt), ih hd]
      rfl

/-- The pairs of a list in order are its dictionary. -/
theorem Sorted.ofList_eq (h : Sorted d) : ofList d = d := by
  have foldl (e rest : Dict α) (h : Sorted (e ++ rest)) :
      rest.foldl (fun d (k, v) => Dict.insert d k v) e = e ++ rest := by
    induction rest generalizing e with
    | nil => simp
    | cons p rest ih =>
        show rest.foldl _ (Dict.insert e p.1 p.2) = _
        rw [insert_last h, ih _ (by simpa using h)]
        simp
  exact foldl [] d h

/-- Walking past a value that is left out anyway, it does not matter whether
    it was put. -/
theorem filterMap_insert {f : String × α → Option β}
    (hnew : f (key, value) = none) (hold : ∀ v, (key, v) ∈ d → f (key, v) = none) :
    (insert d key value).filterMap f = d.filterMap f := by
  induction d with
  | nil => simp [insert, hnew]
  | cons p rest ih =>
      obtain ⟨k, v⟩ := p
      have hrest := ih fun w hw => hold w (List.mem_cons_of_mem _ hw)
      unfold insert
      split
      · next hk =>
          subst hk
          rw [List.filterMap_cons_none hnew, List.filterMap_cons_none (hold v List.mem_cons_self)]
      · split
        · rw [List.filterMap_cons_none hnew]
        · rw [List.filterMap_cons, List.filterMap_cons, hrest]

theorem filterMap_erase {f : String × α → Option β}
    (hold : ∀ v, (key, v) ∈ d → f (key, v) = none) :
    (erase d key).filterMap f = d.filterMap f := by
  induction d with
  | nil => rfl
  | cons p rest ih =>
      obtain ⟨k, v⟩ := p
      have hrest := ih fun w hw => hold w (List.mem_cons_of_mem _ hw)
      unfold erase
      split
      · next hk =>
          subst hk
          rw [List.filterMap_cons_none (hold v List.mem_cons_self)]
      · rw [List.filterMap_cons, List.filterMap_cons, hrest]

end Dict

end LinkedContracts
