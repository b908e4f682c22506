import Synthesis.Settings.Field
import Synthesis.Settings.Address
import Synthesis.Text.Quoted

/-!
Checking settings: every field against its rule, in the order of the table, and then the rules
that join several fields.
-/
namespace Synthesis.Settings

/-- The rule that a field breaks. -/
inductive BrokenRule where
  | least
  | choice
  | address
  | required
  deriving Repr, DecidableEq

def BrokenRule.name : BrokenRule → String
  | .least => "gte"
  | .choice => "oneof"
  | .address => "url"
  | .required => "required"

inductive SettingsError where
  /-- Fields by their labels, those of their sections in front, with the rules they break. -/
  | fields (broken : List (String × String × BrokenRule))
  | pathRequired
  | repeatedStrategy (name : String)

def SettingsError.message : SettingsError → String
  | .fields broken => Text.join "\n" (broken.map fun (group, label, rule) =>
      "Key: 'Config." ++ group ++ label ++ "' Error:Field validation for '" ++ label
        ++ "' failed on the '" ++ rule.name ++ "' tag")
  | .pathRequired => "history.path is required when history is enabled and not in memory"
  | .repeatedStrategy name => "enabled_strategies lists " ++ Text.quote name ++ " twice"

/-- The broken rules of a field, with its label or those of its items. -/
def Field.broken (f : Field) (s : Settings) : List (String × BrokenRule) :=
  match f.slot with
  | .int get _ (some least) => if get s < least then [(f.label, .least)] else []
  | .int _ _ none => []
  | .bool _ _ => []
  | .text get _ (.oneOf choices) =>
    if choices.contains (get s) then [] else [(f.label, .choice)]
  | .text get _ .address =>
    if get s = "" ∨ Address.isAddress (get s) then [] else [(f.label, .address)]
  | .text _ _ .any => []
  | .real get _ => if 0 ≤ get s then [] else [(f.label, .least)]
  | .texts get _ => (get s).zipIdx.filterMap fun (item, i) =>
    if item = "" then some (f.label ++ "[" ++ Decimal.natText i ++ "]", .required) else none

def brokenIn (group : String) (fields : List Field) (s : Settings) :
    List (String × String × BrokenRule) :=
  fields.flatMap fun f => (f.broken s).map fun (label, rule) => (group, label, rule)

def broken (s : Settings) : List (String × String × BrokenRule) :=
  brokenIn "" topFields s ++ sections.flatMap fun g => brokenIn (g.label ++ ".") g.fields s

/-- The first name that stands in a list twice. -/
def repeated? : List String → List String → Option String
  | _, [] => none
  | seen, x :: rest => if seen.contains x then some x else repeated? (x :: seen) rest

/-- What is wrong with the settings, if anything. -/
def error? (s : Settings) : Option SettingsError :=
  match s.broken with
  | [] =>
    if s.history.enabled && !s.history.inMemory && s.history.path == "" then some .pathRequired
    else (repeated? [] s.enabledStrategies).map .repeatedStrategy
  | faults => some (.fields faults)

theorem broken_eq_nil {s : Settings} (h : s.error? = none) : s.broken = [] := by
  unfold error? at h
  split at h
  · assumption
  · exact nomatch h

/-- Settings without an error break no rule of a field at the top. -/
theorem broken_topField {s : Settings} (h : s.error? = none) {f : Field}
    (hf : f ∈ topFields) : f.broken s = [] := by
  have htop : brokenIn "" topFields s = [] := (List.append_eq_nil_iff.mp (broken_eq_nil h)).1
  exact List.map_eq_nil_iff.mp (List.flatMap_eq_nil_iff.mp htop f hf)

/-- Nor do they break a rule of a field in a section. -/
theorem broken_sectionField {s : Settings} (h : s.error? = none) {g : Section}
    (hg : g ∈ sections) {f : Field} (hf : f ∈ g.fields) : f.broken s = [] := by
  have hsections := (List.append_eq_nil_iff.mp (broken_eq_nil h)).2
  have hsection := List.flatMap_eq_nil_iff.mp hsections g hg
  exact List.map_eq_nil_iff.mp (List.flatMap_eq_nil_iff.mp hsection f hf)

/-- Numbers at the top of settings without an error are not below the least that is allowed. -/
theorem least_le_topField {s : Settings} (h : s.error? = none) {name label : String}
    {get : Settings → Int} {set : Int → Settings → Settings} {least : Int}
    (hf : ⟨name, label, .int get set (some least)⟩ ∈ topFields) : least ≤ get s := by
  simpa [Field.broken] using broken_topField h hf

theorem least_le_cacheField {s : Settings} (h : s.error? = none) {name label : String}
    {get : CacheSettings → Int} {set : Int → CacheSettings → CacheSettings} {least : Int}
    (hf : cacheField name label get set least ∈ cacheSection.fields) : least ≤ get s.cache := by
  simpa [Field.broken, cacheField] using broken_sectionField h List.mem_cons_self hf

theorem one_le_maxIterations {s : Settings} (h : s.error? = none) : 1 ≤ s.maxIterations :=
  least_le_topField h List.mem_cons_self

theorem zero_le_maxDepth {s : Settings} (h : s.error? = none) : 0 ≤ s.maxDepth :=
  least_le_topField h (List.mem_of_getElem? (i := 1) rfl)

theorem zero_le_maxValidationRetries {s : Settings} (h : s.error? = none) :
    0 ≤ s.maxValidationRetries :=
  least_le_topField h (List.mem_of_getElem? (i := 5) rfl)

theorem zero_le_maxRetries {s : Settings} (h : s.error? = none) : 0 ≤ s.maxRetries :=
  least_le_topField h (List.mem_of_getElem? (i := 7) rfl)

end Synthesis.Settings
