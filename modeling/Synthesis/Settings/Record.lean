import Synthesis.Settings.Field
import Synthesis.Json.Fields
import Synthesis.Json.Writer

/-!
Settings laid over by a JSON object: every member that names a field replaces its value, the
others are ignored. Null changes nothing but a list, which it empties.
-/
namespace Synthesis.Settings

/-- Reads a JSON value into its place; nothing when it has another type. -/
def Slot.enter? (slot : Slot) (s : Settings) (j : Json) : Option Settings :=
  match slot with
  | .int get set _ => (Json.over? Json.int? (get s) j).map (set · s)
  | .bool get set => (Json.over? Json.bool? (get s) j).map (set · s)
  | .text get set _ => (Json.over? Json.string? (get s) j).map (set · s)
  | .real get set => (Json.over? Json.float? (get s) j).map (set · s)
  | .texts get set =>
    (Json.listOver? (Json.over? Json.string?) "" (some (get s)) j).map fun v => set (v.getD []) s

def reads (fields : List Field) : Json.Reads Settings :=
  fields.map fun f => (f.name, f.slot.enter?)

/-- Lays a JSON object over the settings. -/
def overlay? (s : Settings) (j : Json) : Option Settings :=
  Json.recordOver? (reads topFields
    ++ sections.map fun g => (g.name, Json.recordOver? (reads g.fields))) s j

def slotJson (s : Settings) : Slot → Json
  | .int get _ _ => .ofInt (get s)
  | .bool get _ => .bool (get s)
  | .text get _ _ => .text (get s)
  | .real get _ => .ofFloat (get s)
  | .texts get _ => Json.texts (get s)

def fieldsJson (s : Settings) (fields : List Field) : List (String × Json) :=
  fields.map fun f => (f.name, slotJson s f.slot)

/-- The settings as JSON. -/
def json (s : Settings) : Json :=
  .object (fieldsJson s topFields
    ++ sections.map fun g => (g.name, .object (fieldsJson s g.fields)))

end Synthesis.Settings
