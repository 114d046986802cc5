import LinkedContracts.Contract
import LinkedContracts.Mask
import LinkedContracts.Proofs.Patch.Frame

/-! # What a mask hides

    Redaction takes away the properties a mask forbids, at the contract and
    below the properties it leaves. -/

namespace LinkedContracts

namespace Mask

variable {mask : Schema} {key : String}

/-- The columns of a redacted contract: what the mask forbids is not there. -/
theorem find?_redactRow (fields : Dict Json) (mask : Schema) (hkey : key ≠ "links") :
    Dict.find? (redactRow fields mask) key
      = if forbids mask key then none
        else (Dict.find? fields key).map (redactValue · (property mask key)) := by
  induction fields with
  | nil => simp [redactRow]
  | cons field rest ih =>
      obtain ⟨name, v⟩ := field
      rw [redactRow]
      by_cases hname : name = key
      · subst hname
        rw [if_neg hkey]
        split
        next hforbids => rw [ih, if_pos hforbids]
        next hforbids => simp [Dict.find?_cons]
      · rw [Dict.find?_cons name v, if_neg hname, ← ih]
        split
        · rw [Dict.find?_cons, if_neg hname]
        split
        · rfl
        · rw [Dict.find?_cons, if_neg hname]

theorem field?_redact (c : Json) (mask : Schema) (hkey : key ≠ "links") :
    (redact c mask).field? key
      = if forbids mask key then none
        else (c.field? key).map (redactValue · (property mask key)) := by
  cases c with
  | object fields => exact find?_redactRow fields mask hkey
  | _ => simp [redact, Json.field?]

theorem find?_redactRow_links (fields : Dict Json) (mask : Schema) :
    Dict.find? (redactRow fields mask) "links"
      = (Dict.find? fields "links").map (redactLinks · mask) := by
  induction fields with
  | nil => rfl
  | cons field rest ih =>
      obtain ⟨name, v⟩ := field
      rw [redactRow]
      by_cases hname : name = "links"
      · simp [hname, Dict.find?_cons]
      · rw [if_neg hname, Dict.find?_cons name v, if_neg hname, ← ih]
        split
        · rfl
        · rw [Dict.find?_cons, if_neg hname]

theorem field?_redact_links (c : Json) (mask : Schema) :
    (redact c mask).field? "links" = (c.field? "links").map (redactLinks · mask) := by
  cases c with
  | object fields => exact find?_redactRow_links fields mask
  | _ => rfl

theorem keys_redactRow_sublist (fields : Dict Json) (mask : Schema) :
    (Dict.keys (redactRow fields mask)).Sublist (Dict.keys fields) := by
  induction fields with
  | nil => exact .slnil
  | cons field rest ih =>
      obtain ⟨name, v⟩ := field
      rw [redactRow]
      split
      · exact ih.cons_cons name
      split
      · exact ih.cons name
      · exact ih.cons_cons name

theorem sorted_redactRow {fields : Dict Json} (h : fields.Sorted) (mask : Schema) :
    Dict.Sorted (redactRow fields mask) :=
  List.Pairwise.sublist (keys_redactRow_sublist fields mask) h

/-- A redacted contract has the properties of the contract that the mask does
    not forbid. -/
theorem field?_redact_ne_none {c : Json} (hkey : key ≠ "links") :
    (redact c mask).field? key ≠ none
      ↔ c.field? key ≠ none ∧ forbids mask key = false := by
  rw [field?_redact c mask hkey]
  cases forbids mask key <;> simp

/-- Whether redaction takes a part of a contract away. -/
def Hides (mask : Schema) (c : Contract) (part : List String) : Prop :=
  (c.toRow.part? part).isSome = true ∧ (redact c.toRow mask).part? part = none

end Mask

end LinkedContracts
