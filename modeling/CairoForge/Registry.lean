/-!
# Registries

A registry keeps values in the order in which their keys first came in, at most
one for each key. Writing a value whose key is taken replaces the old value in
its place; a value never moves.

## Main definitions

* `Registry` — the values, with the fact that their keys are distinct.
* `Registry.find?`, `Registry.contains` — look up by key.
* `Registry.put` — write a value under its own key.

## Main results

* `Registry.keys_put` — a write adds its key at the end or changes no key.
* `Registry.find?_put` — what a look up finds after a write.
* `Registry.contains_put` — the keys that are taken after a write.
* `Registry.mem_put` — the values that are there after a write.
-/

namespace CairoForge

/-- Values in order of first arrival, one for each key. -/
structure Registry (α : Type) (key : α → String) where
  /-- The values in order of the first arrival of their keys. -/
  toList : List α
  /-- No two values share a key. -/
  nodup_keys : (toList.map key).Nodup

namespace Registry

variable {α : Type} {key : α → String}

/-- The registry without values. -/
def empty : Registry α key :=
  ⟨[], List.nodup_nil⟩

instance : Inhabited (Registry α key) := ⟨empty⟩

/-- The keys in order of first arrival. -/
def keys (r : Registry α key) : List String :=
  r.toList.map key

/-- The value stored under a key. -/
def find? (r : Registry α key) (k : String) : Option α :=
  r.toList.find? (key · == k)

/-- Is there a value under this key? -/
def contains (r : Registry α key) (k : String) : Bool :=
  r.toList.any (key · == k)

/-- The list in which `a` takes the place of the value with its key, or stands
at the end if there is none. -/
def putIn (key : α → String) (a : α) : List α → List α
  | [] => [a]
  | b :: rest => if key b = key a then a :: rest else b :: putIn key a rest

/-- The keys of a list after a write: the same, or one more at the end. -/
theorem map_putIn (a : α) (l : List α) :
    (putIn key a l).map key = if key a ∈ l.map key then l.map key else l.map key ++ [key a] := by
  induction l with
  | nil => simp [putIn]
  | cons b rest ih =>
    by_cases h : key b = key a
    · simp [putIn, h]
    · have h' : ¬ key a = key b := fun e => h e.symm
      simp only [putIn, h, if_false, List.map_cons, ih, List.mem_cons, h', false_or]
      split <;> simp

/-- Write a value under its own key, in place if the key is taken. -/
def put (r : Registry α key) (a : α) : Registry α key where
  toList := putIn key a r.toList
  nodup_keys := by
    rw [map_putIn]
    split
    · exact r.nodup_keys
    · next h =>
      refine List.nodup_append.mpr ⟨r.nodup_keys, by simp, ?_⟩
      intro x hx y hy hxy
      simp only [List.mem_singleton] at hy
      exact h (hy ▸ hxy ▸ hx)

@[simp] theorem toList_empty : (empty : Registry α key).toList = [] := rfl

theorem contains_iff_mem_keys (r : Registry α key) (k : String) :
    r.contains k = true ↔ k ∈ r.keys := by
  simp [contains, keys]

/-- A write adds its key at the end, or changes no key. -/
theorem keys_put (r : Registry α key) (a : α) :
    (r.put a).keys = if r.contains (key a) then r.keys else r.keys ++ [key a] := by
  have h := r.contains_iff_mem_keys (key a)
  simp only [keys, put, map_putIn] at h ⊢
  simp only [h]

theorem find?_putIn (a : α) (l : List α) (k : String) :
    (putIn key a l).find? (key · == k) =
      if key a = k then some a else l.find? (key · == k) := by
  induction l with
  | nil => by_cases h : key a = k <;> simp [putIn, h]
  | cons b rest ih =>
    by_cases hb : key b = key a
    · by_cases hk : key a = k
      · simp [putIn, hb, hk]
      · simp [putIn, hb, hk]
    · by_cases hk : key b = k
      · have : ¬ key a = k := fun e => hb (hk.trans e.symm)
        simp [putIn, hk, this, Ne.symm this]
      · simp [putIn, hb, hk, ih]

/-- After a write its key holds the new value and every other key what it held. -/
theorem find?_put (r : Registry α key) (a : α) (k : String) :
    (r.put a).find? k = if key a = k then some a else r.find? k :=
  find?_putIn a r.toList k

/-- What is found under a key has that key. -/
theorem key_eq_of_find?_eq_some {r : Registry α key} {k : String} {a : α}
    (h : r.find? k = some a) : key a = k := by
  simpa using List.find?_some h

/-- A key is taken exactly when something is found under it. -/
theorem isSome_find? (r : Registry α key) (k : String) : (r.find? k).isSome = r.contains k := by
  rw [find?, contains, List.isSome_find?]

/-- A write takes its own key and frees none. -/
theorem contains_put (r : Registry α key) (a : α) (k : String) :
    (r.put a).contains k = (key a == k || r.contains k) := by
  rw [← isSome_find?, find?_put, ← isSome_find?]
  by_cases h : key a = k <;> simp [h]

/-- The values after a write: the new one, and those that were there under other keys. -/
theorem mem_putIn {a b : α} {l : List α} (h : (l.map key).Nodup) :
    b ∈ putIn key a l ↔ b = a ∨ (b ∈ l ∧ key b ≠ key a) := by
  induction l with
  | nil => simp [putIn]
  | cons c rest ih =>
    obtain ⟨hc, hrest⟩ := List.nodup_cons.mp h
    by_cases hca : key c = key a
    · -- the new value stands where `c` stood, and no later value has its key
      have hne : ∀ d ∈ rest, key d ≠ key a := fun d hd hda =>
        hc (hca ▸ hda ▸ List.mem_map_of_mem hd)
      simp only [putIn, hca, if_true, List.mem_cons]
      constructor
      · rintro (rfl | hb)
        · exact .inl rfl
        · exact .inr ⟨.inr hb, hne b hb⟩
      · rintro (rfl | ⟨rfl | hb, hba⟩)
        · exact .inl rfl
        · exact absurd hca hba
        · exact .inr hb
    · simp only [putIn, hca, if_false, List.mem_cons, ih hrest]
      constructor
      · rintro (rfl | rfl | ⟨hb, hba⟩)
        · exact .inr ⟨.inl rfl, hca⟩
        · exact .inl rfl
        · exact .inr ⟨.inr hb, hba⟩
      · rintro (rfl | ⟨rfl | hb, hba⟩)
        · exact .inr (.inl rfl)
        · exact .inl rfl
        · exact .inr (.inr ⟨hb, hba⟩)

/-- A write adds its value and takes away at most the value that had its key. -/
theorem mem_put {r : Registry α key} {a b : α} :
    b ∈ (r.put a).toList ↔ b = a ∨ (b ∈ r.toList ∧ key b ≠ key a) :=
  mem_putIn r.nodup_keys

theorem eq_of_key_eq_of_nodup {a b : α} {l : List α} (h : (l.map key).Nodup) (ha : a ∈ l)
    (hb : b ∈ l) (hab : key a = key b) : a = b := by
  induction l with
  | nil => cases ha
  | cons c rest ih =>
    obtain ⟨hc, hrest⟩ := List.nodup_cons.mp h
    rcases List.mem_cons.mp ha with rfl | har <;> rcases List.mem_cons.mp hb with rfl | hbr
    · rfl
    · exact absurd (hab ▸ List.mem_map_of_mem hbr) hc
    · exact absurd (hab ▸ List.mem_map_of_mem har) hc
    · exact ih hrest har hbr

/-- Two stored values with one key are the same value. -/
theorem eq_of_key_eq {r : Registry α key} {a b : α} (ha : a ∈ r.toList) (hb : b ∈ r.toList)
    (h : key a = key b) : a = b :=
  eq_of_key_eq_of_nodup r.nodup_keys ha hb h

/-- What is stored is what is found under its own key. -/
theorem find?_eq_some_iff {r : Registry α key} {k : String} {a : α} :
    r.find? k = some a ↔ a ∈ r.toList ∧ key a = k := by
  constructor
  · intro h
    exact ⟨List.mem_of_find?_eq_some h, key_eq_of_find?_eq_some h⟩
  · rintro ⟨ha, rfl⟩
    cases h : r.find? (key a) with
    | none => simpa using List.find?_eq_none.mp h a ha
    | some b =>
      have hb := List.mem_of_find?_eq_some h
      rw [eq_of_key_eq hb ha (key_eq_of_find?_eq_some h)]

/-- Writing under a free key adds the value at the end. -/
theorem toList_put_of_contains_eq_false {r : Registry α key} {a : α}
    (h : r.contains (key a) = false) : (r.put a).toList = r.toList ++ [a] := by
  have hmem : ∀ b ∈ r.toList, key b ≠ key a := by
    simpa [contains] using h
  clear h
  show putIn key a r.toList = r.toList ++ [a]
  generalize r.toList = l at hmem
  induction l with
  | nil => rfl
  | cons b rest ih =>
    have hb := hmem b (by simp)
    simp [putIn, hb, ih fun c hc => hmem c (by simp [hc])]

/-- Writing under a taken key puts the new value in the place of the old one. -/
theorem toList_put_of_contains {r : Registry α key} {a : α} (h : r.contains (key a) = true) :
    (r.put a).toList = r.toList.map fun b => if key b = key a then a else b := by
  have hkey : ∃ b ∈ r.toList, key b = key a := by
    simpa [contains] using h
  have hnodup := r.nodup_keys
  clear h
  show putIn key a r.toList = _
  generalize r.toList = l at hkey hnodup
  induction l with
  | nil => simp at hkey
  | cons b rest ih =>
    obtain ⟨hb, hrest⟩ := List.nodup_cons.mp hnodup
    by_cases hba : key b = key a
    · -- no later value has the key, so the rest stays as it is
      have hother : ∀ c ∈ rest, (if key c = key a then a else c) = c := fun c hc =>
        if_neg fun (hca : key c = key a) => hb (hba ▸ hca ▸ List.mem_map_of_mem hc)
      rw [putIn, if_pos hba, List.map_cons, if_pos hba, List.map_congr_left hother, List.map_id']
    · have hlater : ∃ c ∈ rest, key c = key a := by
        obtain ⟨c, hc, hca⟩ := hkey
        rcases List.mem_cons.mp hc with rfl | hc
        · exact absurd hca hba
        · exact ⟨c, hc, hca⟩
      rw [putIn, if_neg hba, List.map_cons, if_neg hba, ih hlater hrest]

/-- The values after a write, when the values before it are known by their keys. -/
theorem toList_put_of_eq_map {r : Registry α key} {value : String → α} {known : List String}
    (h : r.toList = known.map value) (hvalue : ∀ k, key (value k) = k) (a : α) :
    (r.put a).toList =
      (if key a ∈ known then known else known ++ [key a]).map fun k =>
        if k = key a then a else value k := by
  have hcontains : r.contains (key a) = true ↔ key a ∈ known := by
    have hkeys : r.keys = known := by
      rw [keys, h, List.map_map]
      exact (List.map_congr_left fun k _ => hvalue k).trans (List.map_id known)
    rw [contains_iff_mem_keys, hkeys]
  by_cases hmem : key a ∈ known
  · rw [if_pos hmem, toList_put_of_contains (hcontains.mpr hmem), h, List.map_map]
    exact List.map_congr_left fun k _ => by simp only [Function.comp, hvalue]
  · have hothers : ∀ k ∈ known, value k = if k = key a then a else value k :=
      fun k hk => (if_neg fun hka : k = key a => hmem (hka ▸ hk)).symm
    rw [if_neg hmem, toList_put_of_contains_eq_false
      (Bool.eq_false_iff.mpr (mt hcontains.mp hmem)), h, List.map_append,
      List.map_congr_left hothers, List.map_singleton, if_pos rfl]

/-- A value may be dropped before or after a write under another key. -/
theorem filter_putIn {a : α} {k : String} (h : key a ≠ k) (l : List α) :
    (putIn key a l).filter (key · != k) = putIn key a (l.filter (key · != k)) := by
  induction l with
  | nil => simp [putIn, h]
  | cons b rest ih =>
    by_cases hba : key b = key a
    · -- the write stops here, at a value that is kept as the new one is
      simp [putIn, hba, h]
    · by_cases hb : key b = k
      · have hka : k ≠ key a := h.symm
        simp [putIn, hb, hka, ih]
      · simp [putIn, hb, hba, ih]

/-- A stored value is the only one under its key. -/
theorem filter_key_eq {r : Registry α key} {a : α} (h : a ∈ r.toList) :
    r.toList.filter (key · == key a) = [a] := by
  obtain ⟨before, after, hsplit⟩ := List.append_of_mem h
  have hnodup := r.nodup_keys
  rw [hsplit, List.map_append, List.map_cons, List.nodup_append] at hnodup
  obtain ⟨-, hafter, hbefore⟩ := hnodup
  have hbefore' : before.filter (key · == key a) = [] := by
    refine List.filter_eq_nil_iff.mpr fun b hb heq => ?_
    exact hbefore _ (List.mem_map_of_mem hb) _ List.mem_cons_self (by simpa using heq)
  have hafter' : after.filter (key · == key a) = [] := by
    refine List.filter_eq_nil_iff.mpr fun b hb heq => (List.nodup_cons.mp hafter).1 ?_
    have hkey : key b = key a := by simpa using heq
    exact hkey ▸ List.mem_map_of_mem hb
  simp [hsplit, hbefore', hafter']

/-- Writing what is stored changes nothing. -/
theorem put_eq_self {r : Registry α key} {a : α} (h : a ∈ r.toList) : r.put a = r := by
  have hcontains : r.contains (key a) = true :=
    (r.contains_iff_mem_keys (key a)).mpr (List.mem_map_of_mem h)
  have hsame : ∀ b ∈ r.toList, (if key b = key a then a else b) = b := by
    intro b hb
    split
    · next hba => exact eq_of_key_eq h hb hba.symm
    · rfl
  have hlist := toList_put_of_contains hcontains
  rw [List.map_congr_left hsame, List.map_id'] at hlist
  cases hput : r.put a
  cases r
  simp only [hput] at hlist
  simp only [hlist]

/-- The keys that several writes take. -/
theorem contains_foldl_put (r : Registry α key) (values : List α) (k : String) :
    (values.foldl put r).contains k = (values.any (key · == k) || r.contains k) := by
  induction values generalizing r with
  | nil => rfl
  | cons a rest ih =>
    rw [List.foldl_cons, ih, contains_put, List.any_cons, ← Bool.or_assoc,
      Bool.or_comm (key a == k)]

/-- What is there after several writes was there before or is one of the written values. -/
theorem mem_of_mem_foldl_put {r : Registry α key} {values : List α} {b : α}
    (h : b ∈ (values.foldl put r).toList) : b ∈ r.toList ∨ b ∈ values := by
  induction values generalizing r with
  | nil => exact .inl h
  | cons a rest ih =>
    rcases ih h with hb | hb
    · rcases mem_put.mp hb with rfl | ⟨hb, -⟩
      · exact .inr (by simp)
      · exact .inl hb
    · exact .inr (List.mem_cons_of_mem a hb)

/-- Writes that agree with a stored value wherever they have its key leave it there. -/
theorem mem_foldl_put_of_agree {r : Registry α key} {values : List α} {b : α} (h : b ∈ r.toList)
    (hvalues : ∀ a ∈ values, key a = key b → a = b) : b ∈ (values.foldl put r).toList := by
  induction values generalizing r with
  | nil => exact h
  | cons a rest ih =>
    have hput : b ∈ (r.put a).toList := by
      by_cases hkey : key a = key b
      · exact mem_put.mpr (.inl (hvalues a (by simp) hkey).symm)
      · exact mem_put.mpr (.inr ⟨h, Ne.symm hkey⟩)
    exact ih hput fun other hother => hvalues other (List.mem_cons_of_mem a hother)

/-- Writes under other keys leave a value where it is. -/
theorem mem_foldl_put_of_mem {r : Registry α key} {values : List α} {b : α} (h : b ∈ r.toList)
    (hvalues : ∀ a ∈ values, key a ≠ key b) : b ∈ (values.foldl put r).toList :=
  mem_foldl_put_of_agree h fun a ha hkey => absurd hkey (hvalues a ha)

/-- What is written is there afterwards if later writes agree with it. -/
theorem mem_foldl_put_of_mem_values {r : Registry α key} {values : List α} {b : α}
    (h : b ∈ values) (hvalues : ∀ a ∈ values, key a = key b → a = b) :
    b ∈ (values.foldl put r).toList := by
  induction values generalizing r with
  | nil => cases h
  | cons a rest ih =>
    obtain ⟨-, hrest⟩ := List.forall_mem_cons.mp hvalues
    rcases List.mem_cons.mp h with rfl | hmem
    · rw [List.foldl_cons]
      exact mem_foldl_put_of_agree (mem_put.mpr (.inl rfl)) hrest
    · exact ih hmem hrest

/-- Writes under other keys leave the first value first. -/
theorem toList_foldl_put_cons {r : Registry α key} {values : List α} {b : α} {rest : List α}
    (h : r.toList = b :: rest) (hvalues : ∀ a ∈ values, key a ≠ key b) :
    ∃ rest', (values.foldl put r).toList = b :: rest' := by
  induction values generalizing r rest with
  | nil => exact ⟨rest, h⟩
  | cons a values ih =>
    obtain ⟨ha, hvalues⟩ := List.forall_mem_cons.mp hvalues
    have hput : (r.put a).toList = b :: putIn key a rest := by
      show putIn key a r.toList = _
      rw [h, putIn, if_neg ha.symm]
    exact ih hput hvalues

end Registry

end CairoForge
