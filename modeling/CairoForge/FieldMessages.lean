/-!
# Messages for option fields

Why an options record is refused: one message for each field at fault, in the
order of the field names.

## Main definitions

* `FieldMessages` — field names with their messages.
* `FieldMessages.set` — record a message, replacing an earlier one for the field.
* `FieldMessages.text` — all messages in one line.
-/

namespace CairoForge

/-- Messages by field name. Names are compared by their code points. -/
structure FieldMessages where
  /-- The fields with their messages, in order of the names. -/
  entries : List (String × String)
  deriving DecidableEq

namespace FieldMessages

/-- No field is at fault. -/
def empty : FieldMessages := ⟨[]⟩

/-- A list in order of the names with one more field in its place. -/
def setIn (field message : String) : List (String × String) → List (String × String)
  | [] => [(field, message)]
  | entry :: rest =>
    if field < entry.1 then (field, message) :: entry :: rest
    else if field = entry.1 then (field, message) :: rest
    else entry :: setIn field message rest

/-- Record a message for a field, in place of an earlier one. -/
def set (messages : FieldMessages) (field message : String) : FieldMessages :=
  ⟨setIn field message messages.entries⟩

/-- Record a message for a field if there is one. -/
def set? (messages : FieldMessages) (field : String) : Option String → FieldMessages
  | some message => messages.set field message
  | none => messages

/-- Is no field at fault? -/
def isEmpty (messages : FieldMessages) : Bool :=
  messages.entries.isEmpty

/-- All messages in one line. -/
def text (messages : FieldMessages) : String :=
  "; ".intercalate (messages.entries.map fun entry => entry.1 ++ ": " ++ entry.2)

/-- A new name is added to the names and no other name comes or goes. -/
theorem mem_map_fst_setIn (field message : String) (entries : List (String × String)) (f : String) :
    f ∈ (setIn field message entries).map Prod.fst ↔
      f = field ∨ f ∈ entries.map Prod.fst := by
  induction entries with
  | nil => simp [setIn]
  | cons entry rest ih =>
    simp only [setIn]
    split
    · simp
    · split
      · next h => simp [h]
      · simp only [List.map_cons, List.mem_cons, ih]
        exact or_left_comm

theorem setIn_ne_nil (field message : String) (entries : List (String × String)) :
    setIn field message entries ≠ [] := by
  intro h
  have := (mem_map_fst_setIn field message entries field).mpr (.inl rfl)
  rw [h] at this
  cases this

/-- There is no message only where there was none and none was recorded. -/
theorem isEmpty_set? (messages : FieldMessages) (field : String) (message? : Option String) :
    (messages.set? field message?).isEmpty = true ↔
      messages.isEmpty = true ∧ message? = none := by
  cases message? with
  | none => simp [set?]
  | some message => simpa [set?, set, isEmpty] using setIn_ne_nil field message messages.entries

/-- A name behind all others is put behind them. -/
theorem setIn_of_last {field message : String} {entries : List (String × String)}
    (h : ∀ entry ∈ entries, entry.1 < field) :
    setIn field message entries = entries ++ [(field, message)] := by
  induction entries with
  | nil => rfl
  | cons entry rest ih =>
    obtain ⟨hentry, hrest⟩ := List.forall_mem_cons.mp h
    have hne : field ≠ entry.1 := fun hsame => String.lt_irrefl _ (hsame ▸ hentry)
    rw [setIn, if_neg (String.lt_asymm hentry), if_neg hne, ih hrest, List.cons_append]

/-- A message for a field behind all others comes last. -/
theorem entries_set?_of_last (messages : FieldMessages) (field : String)
    (h : ∀ entry ∈ messages.entries, entry.1 < field) (message? : Option String) :
    (messages.set? field message?).entries =
      messages.entries ++ message?.toList.map (field, ·) := by
  cases message? with
  | none => simp [set?]
  | some message => exact setIn_of_last h

end FieldMessages

end CairoForge
