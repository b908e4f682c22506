import Synthesis.Proofs.Keys
import Synthesis.Proofs.Moments
import Synthesis.Proofs.WholeTexts

/-!
Keys show content and nothing else. A part of a key is seen from outside as its encoding, its
rendering and its place among keys, and what is seen of a list or a map depends on what is seen of
its members only. So the entries of a map may be permuted however deep it lies, as long as its keys
have different encodings. A context is told by its primitives, its library names and what is
solved, whatever the steps were that built it.
-/
namespace Synthesis

section Presence

variable {α : Type}

/-- The members, if none is absent. -/
def allPresent? (xs : List (Option α)) : Option (List α) :=
  if xs.all Option.isSome then some (xs.filterMap id) else none

theorem allPresent?_cons (x : Option α) (xs : List (Option α)) :
    allPresent? (x :: xs) = x.bind fun a => (allPresent? xs).map (a :: ·) := by
  cases x with
  | none => rfl
  | some a =>
    unfold allPresent?
    rw [List.all_cons, List.filterMap_cons]
    by_cases hxs : xs.all Option.isSome = true
    · simp [hxs]
    · simp [hxs]

end Presence

namespace Cbor

/-- The bytes of an array with these encoded items. -/
def arrayCode (codes : List Bytes) : Bytes := head 4 codes.length ++ codes.flatten

theorem encode_array (items : List Cbor) :
    encode (.array items) = arrayCode (items.map encode) := by
  have hitems : encodeItems items = items.map encode := by
    induction items with
    | nil => rfl
    | cons c cs ih => rw [encodeItems, ih, List.map_cons]
  rw [encode, hitems, arrayCode, List.length_map]

/-- Entries of maps change places, at any depth, where keys have different encodings. -/
inductive Reordered : Cbor → Cbor → Prop
  | refl (c : Cbor) : Reordered c c
  | trans {a b c : Cbor} : Reordered a b → Reordered b c → Reordered a c
  | item {c c' : Cbor} (before after : List Cbor) (h : Reordered c c') :
      Reordered (.array (before ++ c :: after)) (.array (before ++ c' :: after))
  | key {k k' : Cbor} (before : List (Cbor × Cbor)) (v : Cbor) (after : List (Cbor × Cbor))
      (h : Reordered k k') :
      Reordered (.map (before ++ (k, v) :: after)) (.map (before ++ (k', v) :: after))
  | value {v v' : Cbor} (before : List (Cbor × Cbor)) (k : Cbor) (after : List (Cbor × Cbor))
      (h : Reordered v v') :
      Reordered (.map (before ++ (k, v) :: after)) (.map (before ++ (k, v') :: after))
  | entries {es es' : List (Cbor × Cbor)} (hkeys : (es.map fun x => encode x.1).Nodup)
      (hperm : es.Perm es') : Reordered (.map es) (.map es')

theorem Reordered.encode_eq {c c' : Cbor} (h : Reordered c c') : encode c = encode c' := by
  induction h with
  | refl c => rfl
  | trans _ _ ih ih' => exact ih.trans ih'
  | item before after _ ih =>
    rw [encode_array, encode_array, List.map_append, List.map_cons, ih, List.map_append,
      List.map_cons]
  | key before v after _ ih =>
    rw [encode_map, encode_map, List.map_append, List.map_cons, ih, List.map_append, List.map_cons]
  | value before k after _ ih =>
    rw [encode_map, encode_map, List.map_append, List.map_cons, ih, List.map_append, List.map_cons]
  | entries hkeys hperm => exact encode_map_of_perm hkeys hperm

end Cbor

namespace Key

namespace Part

/-- The bytes of a part, none if it has no encoding. -/
def code (p : Part) : Bytes := (p.cbor?.map Cbor.encode).getD []

/-- What is seen of a part from outside: its encoding if it has one, its type, its rendering on its
own and inside another part, and its place among the keys of a rendered map. -/
structure View where
  code? : Option Bytes
  type : String
  text : String
  inner : String
  place : List Nat

def view (p : Part) : View :=
  ⟨p.cbor?.map Cbor.encode, p.typeName, p.describe, inside p p.describe, p.place⟩

/-- A part that is rendered as its type and its members in braces. -/
def View.ofMembers (type : String) (code? : Option Bytes) (texts : List String) : View :=
  ⟨code?, type, type ++ braces texts, type ++ braces texts, [7]⟩

/-- The encoding of an entry of a map. -/
def View.entryCode? (x : View × View) : Option (Bytes × Bytes) :=
  x.1.code?.bind fun k => x.2.code?.map fun v => (k, v)

/-- The rendering of an entry of a map. -/
def View.rendered (x : View × View) : Rendered :=
  ⟨x.1.code?.getD [], x.1.place, x.1.inner ++ ":" ++ x.2.inner⟩

/-- Views of a key and a value. -/
def views (x : Part × Part) : View × View := (x.1.view, x.2.view)

theorem view_list (items : List Part) :
    (Part.list (some items)).view = .ofMembers (typeName (.list none))
      (((items? items).map Cbor.array).map Cbor.encode) (describeItems items) := rfl

theorem view_map (entries : List (Part × Part)) :
    (Part.map entries).view = .ofMembers (typeName (.map []))
      (((entries? entries).map Cbor.map).map Cbor.encode)
      ((Rendered.inOrder (describeEntries entries)).map (·.text)) := rfl

theorem view_record (type : String) (c : Cbor) :
    (Part.record type c).view = .ofMembers type (some (Cbor.encode c)) [] := rfl

theorem encode_items? (items : List Part) :
    (items? items).map (fun cs => Cbor.encode (.array cs)) =
      (allPresent? ((items.map view).map (·.code?))).map Cbor.arrayCode := by
  have hitems : (items? items).map (List.map Cbor.encode) =
      allPresent? ((items.map view).map (·.code?)) := by
    induction items with
    | nil => rfl
    | cons p ps ih =>
      rw [List.map_cons, List.map_cons, allPresent?_cons, ← ih, items?]
      simp only [view]
      cases p.cbor? with
      | none => rfl
      | some c =>
        cases items? ps with
        | none => rfl
        | some cs => rfl
  rw [← hitems, Option.map_map]
  congr 1
  funext cs
  exact Cbor.encode_array cs

theorem encode_entries? (entries : List (Part × Part)) :
    (entries? entries).map (fun es => Cbor.encode (.map es)) =
      (allPresent? ((entries.map views).map View.entryCode?)).map Cbor.mapCode := by
  have hentries : (entries? entries).map (List.map fun x => (Cbor.encode x.1, Cbor.encode x.2)) =
      allPresent? ((entries.map views).map View.entryCode?) := by
    induction entries with
    | nil => rfl
    | cons x rest ih =>
      rw [List.map_cons, List.map_cons, allPresent?_cons, ← ih, entries?]
      simp only [views, view, View.entryCode?]
      cases x.1.cbor? with
      | none => rfl
      | some k =>
        cases x.2.cbor? with
        | none => rfl
        | some v =>
          cases entries? rest with
          | none => rfl
          | some es => rfl
  rw [← hentries, Option.map_map]
  congr 1
  funext es
  exact Cbor.encode_map es

theorem describeItems_eq_map (items : List Part) :
    describeItems items = (items.map view).map (·.inner) := by
  induction items with
  | nil => rfl
  | cons p ps ih =>
    rw [describeItems, ih]
    rfl

theorem describeEntries_eq_map (entries : List (Part × Part)) :
    describeEntries entries = (entries.map views).map View.rendered := by
  induction entries with
  | nil => rfl
  | cons x rest ih =>
    rw [describeEntries, ih]
    rfl

/-- What is seen of a list depends on what is seen of its items. -/
theorem view_list_congr {items items' : List Part} (h : items.map view = items'.map view) :
    (Part.list (some items)).view = (Part.list (some items')).view := by
  have hcode : ((items? items).map Cbor.array).map Cbor.encode =
      ((items? items').map Cbor.array).map Cbor.encode := by
    rw [Option.map_map, Option.map_map]
    exact (encode_items? items).trans (h ▸ (encode_items? items').symm)
  have htexts : describeItems items = describeItems items' := by
    rw [describeItems_eq_map, describeItems_eq_map, h]
  rw [view_list, view_list, hcode, htexts]

/-- What is seen of a map depends on the encodings of its entries and on their renderings. -/
theorem view_map_eq {entries entries' : List (Part × Part)}
    (hcodes : (allPresent? ((entries.map views).map View.entryCode?)).map Cbor.mapCode =
      (allPresent? ((entries'.map views).map View.entryCode?)).map Cbor.mapCode)
    (htexts : Rendered.inOrder ((entries.map views).map View.rendered) =
      Rendered.inOrder ((entries'.map views).map View.rendered)) :
    (Part.map entries).view = (Part.map entries').view := by
  have hcode : ((entries? entries).map Cbor.map).map Cbor.encode =
      ((entries? entries').map Cbor.map).map Cbor.encode := by
    rw [Option.map_map, Option.map_map]
    exact (encode_entries? entries).trans (hcodes.trans (encode_entries? entries').symm)
  rw [← describeEntries_eq_map, ← describeEntries_eq_map] at htexts
  rw [view_map, view_map, hcode, htexts]

theorem view_map_congr {entries entries' : List (Part × Part)}
    (h : entries.map views = entries'.map views) :
    (Part.map entries).view = (Part.map entries').view :=
  view_map_eq (by rw [h]) (by rw [h])

theorem code_of_entryCode? {x : Part × Part} {codes : Bytes × Bytes}
    (h : View.entryCode? (views x) = some codes) : x.1.code = codes.1 := by
  obtain ⟨k, hk, v, -, rfl⟩ : ∃ k, x.1.view.code? = some k ∧
      ∃ v, x.2.view.code? = some v ∧ (k, v) = codes := by
    simpa [View.entryCode?, views, Option.bind_eq_some_iff] using h
  exact congrArg (·.getD []) hk

theorem view_map_of_perm {entries entries' : List (Part × Part)}
    (hkeys : (entries.map fun x => x.1.code).Nodup) (hperm : entries.Perm entries') :
    (Part.map entries).view = (Part.map entries').view := by
  have hviews := hperm.map views
  have hsame : ∀ {x y}, x ∈ entries → y ∈ entries → x.1.code = y.1.code → x = y :=
    fun hx hy => List.inj_on_of_nodup_map hkeys hx hy
  apply view_map_eq
  · have hcodes := hviews.map View.entryCode?
    unfold allPresent?
    rw [hcodes.all_eq]
    split
    · refine congrArg some (Cbor.mapCode_of_perm (fun a ha b hb hkey => ?_) (hcodes.filterMap id))
      obtain ⟨x, hx, hxa⟩ : ∃ x ∈ entries, View.entryCode? (views x) = some a := by
        simpa using ha
      obtain ⟨y, hy, hyb⟩ : ∃ y ∈ entries, View.entryCode? (views y) = some b := by
        simpa using hb
      have hxy := hsame hx hy
        ((code_of_entryCode? hxa).trans (hkey.trans (code_of_entryCode? hyb).symm))
      rw [hxy, hyb] at hxa
      exact (Option.some.inj hxa).symm
    · rfl
  · unfold Rendered.inOrder
    congr 1
    refine Cbor.sortedByBytes_eq_of_perm _ (fun a ha b hb hcode => ?_) (hviews.map View.rendered)
    obtain ⟨x, hx, rfl⟩ : ∃ x ∈ entries, View.rendered (views x) = a := by simpa using ha
    obtain ⟨y, hy, rfl⟩ : ∃ y ∈ entries, View.rendered (views y) = b := by simpa using hb
    rw [hsame hx hy hcode]

/-- Entries of maps change places, at any depth, where keys have different encodings. -/
inductive Reordered : Part → Part → Prop
  | refl (p : Part) : Reordered p p
  | trans {p q r : Part} : Reordered p q → Reordered q r → Reordered p r
  | item {p p' : Part} (before after : List Part) (h : Reordered p p') :
      Reordered (.list (some (before ++ p :: after))) (.list (some (before ++ p' :: after)))
  | key {k k' : Part} (before : List (Part × Part)) (v : Part) (after : List (Part × Part))
      (h : Reordered k k') :
      Reordered (.map (before ++ (k, v) :: after)) (.map (before ++ (k', v) :: after))
  | value {v v' : Part} (before : List (Part × Part)) (k : Part) (after : List (Part × Part))
      (h : Reordered v v') :
      Reordered (.map (before ++ (k, v) :: after)) (.map (before ++ (k, v') :: after))
  | entries {es es' : List (Part × Part)} (hkeys : (es.map fun x => x.1.code).Nodup)
      (hperm : es.Perm es') : Reordered (.map es) (.map es')
  | content (type : String) {c c' : Cbor} (h : c.Reordered c') :
      Reordered (.record type c) (.record type c')

theorem Reordered.view_eq {p p' : Part} (h : p.Reordered p') : p.view = p'.view := by
  induction h with
  | refl p => rfl
  | trans _ _ ih ih' => exact ih.trans ih'
  | item before after _ ih =>
    apply view_list_congr
    rw [List.map_append, List.map_cons, ih, List.map_append, List.map_cons]
  | key before v after _ ih =>
    apply view_map_congr
    rw [List.map_append, List.map_cons, views, ih, List.map_append, List.map_cons, views]
  | value before k after _ ih =>
    apply view_map_congr
    rw [List.map_append, List.map_cons, views, ih, List.map_append, List.map_cons, views]
  | entries hkeys hperm => exact view_map_of_perm hkeys hperm
  | content type hc => rw [view_record, view_record, hc.encode_eq]

theorem map_view_of_reordered {parts parts' : List Part} (h : parts.Forall₂ Reordered parts') :
    parts.map view = parts'.map view := by
  induction h with
  | nil => rfl
  | cons hp _ ih => rw [List.map_cons, List.map_cons, hp.view_eq, ih]

end Part

/-- The bytes of a list of parts depend on what is seen of each. -/
theorem bytesOf_congr {parts parts' : List Part} (h : parts.map Part.view = parts'.map Part.view) :
    bytesOf parts = bytesOf parts' := by
  have heq : ∀ ps : List Part, bytesOf ps =
      ((Part.items? ps).map fun cs => Cbor.encode (.array cs)).getD (Cbor.utf8
        (String.join ((ps.map Part.view).map fun x => x.type ++ ":" ++ x.text ++ "|"))) := by
    intro ps
    rw [bytesOf, List.map_map]
    cases Part.items? ps with
    | none => rfl
    | some cs => rfl
  rw [heq, heq, Part.encode_items?, Part.encode_items?, h]

end Key

namespace Table

variable {α : Type} {t : Table α}

/-- Its names are whole. -/
def Named (t : Table α) : Prop := ∀ name ∈ t.names, Text.Whole name

theorem named_empty : ({} : Table α).Named := by
  intro name hname
  cases hname

theorem Named.insert (h : t.Named) {name : String} (hname : Text.Whole name) (value : α) :
    (t.insert name value).Named := by
  unfold Named
  by_cases hmem : name ∈ t.names
  · rw [names_insert_of_mem hmem]
    exact h
  · rw [names_insert_of_notMem hmem, List.forall_mem_append, List.forall_mem_singleton]
    exact ⟨h, hname⟩

theorem Named.insertAll (h : t.Named) {pairs : List (String × α)}
    (hnames : ∀ x ∈ pairs, Text.Whole x.1) : (t.insertAll pairs).Named := by
  unfold Table.insertAll
  induction pairs generalizing t with
  | nil => exact h
  | cons x pairs ih =>
    rw [List.forall_mem_cons] at hnames
    exact ih (h.insert hnames.1 x.2) hnames.2

/-- Whole names that differ have different bytes. -/
theorem Named.proper (h : t.Named) : t.Proper := by
  refine List.Nodup.map_on (fun name hname name' hname' heq => ?_) t.nodup
  exact Cbor.eq_of_utf8 (h name hname) (h name' hname') heq

end Table

namespace Context

/-- The context with one more library entry. -/
def withLibrary (c : Context) (name : String) (value : Value) : Context :=
  ⟨some { c.contents.getD .fresh with library := some (c.library.insert name value) }⟩

/-- The context with one more resource. -/
def withResource (c : Context) (name : String) (value : Value) : Context :=
  ⟨some { c.contents.getD .fresh with resources := some (c.resources.insert name value) }⟩

theorem solved_withLibrary (c : Context) (name : String) (value : Value) :
    (c.withLibrary name value).solved = c.solved := by
  obtain ⟨_ | contents⟩ := c
  · rfl
  · rfl

theorem solved_withResource (c : Context) (name : String) (value : Value) :
    (c.withResource name value).solved = c.solved := by
  obtain ⟨_ | contents⟩ := c
  · rfl
  · rfl

/-- The contexts that come about: one that is missing, or whose maps are missing, or one from
primitives, then step by step. -/
inductive Built : Context → Prop
  | missing : Built {}
  | bare : Built ⟨some {}⟩
  | ofPrimitives (names : List String) : Built (ofPrimitives names)
  | library {c : Context} (h : Built c) (name : String) (value : Value) :
      Built (c.withLibrary name value)
  | resource {c : Context} (h : Built c) (name : String) (value : Value) :
      Built (c.withResource name value)
  | withSolved {c : Context} (h : Built c) {description : String}
      (hname : Text.Whole description) (solution : Artifact) :
      Built (c.withSolved description solution)
  | withSolvedAll {c : Context} (h : Built c) {entries : List (String × Artifact)}
      (hnames : ∀ x ∈ entries, Text.Whole x.1) : Built (c.withSolvedAll entries)

theorem Built.named {c : Context} (h : c.Built) : c.solved.Named := by
  induction h with
  | missing => exact Table.named_empty
  | bare => exact Table.named_empty
  | ofPrimitives names => exact Table.named_empty
  | library _ name value ih =>
    rw [solved_withLibrary]
    exact ih
  | resource _ name value ih =>
    rw [solved_withResource]
    exact ih
  | withSolved _ hname solution ih => exact ih.insertAll (List.forall_mem_singleton.mpr hname)
  | withSolvedAll _ hnames ih => exact ih.insertAll hnames

end Context

/-- Two contexts with the same content have one key, however they were built, and the key of a list
of parts stays when entries of maps change places in it. -/
theorem keys_show_content_only :
    (∀ c c' : Context, c.Built → c'.Built → c.SameContent c' → c.contentKey = c'.contentKey) ∧
      ∀ parts parts' : List Key.Part, parts.Forall₂ Key.Part.Reordered parts' →
        Key.ofAnyParts parts = Key.ofAnyParts parts' := by
  constructor
  · intro c c' h _ hsame
    exact Context.contentKey_congr h.named.proper hsame
  · intro parts parts' h
    rw [Key.ofAnyParts, Key.ofAnyParts, Key.bytesOf_congr (Key.Part.map_view_of_reordered h)]

namespace Context

/-- A solution is drafted, then replaced. -/
def drafted : Context :=
  let c := (ofPrimitives ["map", "fold", "map"]).withSolved "sum" { code := "draft" }
  (c.withLibrary "prelude" (.int 1)).withSolvedAll
    [("max", { code := "most" }), ("sum", { code := "total" })]

def direct : Context :=
  let c := ((ofPrimitives ["fold", "map"]).withLibrary "prelude" (.int 2)).withResource "log" .null
  (c.withSolved "max" { code := "most" }).withSolved "sum" { code := "total" }

theorem built_drafted : drafted.Built := by
  have hsum : Text.Whole "sum" := Text.Valid.whole (by decide)
  have hmax : Text.Whole "max" := Text.Valid.whole (by decide)
  refine .withSolvedAll (.library (.withSolved (.ofPrimitives _) hsum _) _ _) ?_
  simp only [List.forall_mem_cons]
  exact ⟨hmax, hsum, by simp⟩

theorem built_direct : direct.Built := by
  have hsum : Text.Whole "sum" := Text.Valid.whole (by decide)
  have hmax : Text.Whole "max" := Text.Valid.whole (by decide)
  exact .withSolved (.withSolved (.resource (.library (.ofPrimitives _) _ _) _ _) hmax _) hsum _

theorem drafted_sameContent_direct : drafted.SameContent direct := by
  constructor
  · intro name
    change name ∈ Text.distinct ["map", "fold", "map"] ↔ name ∈ Text.distinct ["fold", "map"]
    rw [Text.mem_distinct, Text.mem_distinct]
    grind
  · exact fun name => Iff.rfl
  · intro name
    simp only [drafted, direct, withSolved, solved_withSolvedAll, solved_withLibrary,
      solved_withResource, Table.insertAll, List.foldl_cons, List.foldl_nil, Table.get?_insert]
    by_cases hsum : "sum" = name
    · rw [if_pos hsum, if_pos hsum]
    · rw [if_neg hsum, if_neg hsum, if_neg hsum]
      rfl

/-- What is missing counts as empty. -/
theorem missing_sameContent_empty : SameContent {} (ofPrimitives []) ∧
    SameContent ⟨some {}⟩ (ofPrimitives []) :=
  ⟨⟨fun _ => Iff.rfl, fun _ => Iff.rfl, fun _ => rfl⟩,
    ⟨fun _ => Iff.rfl, fun _ => Iff.rfl, fun _ => rfl⟩⟩

end Context

namespace Key.Part

def pair (p : Part) : Part := .map [(.text "a", p), (.text "b", .int 1)]

def turned (p : Part) : Part := .map [(.text "b", .int 1), (.text "a", p)]

theorem reordered_turned (p : Part) : (pair p).Reordered (turned p) := by
  refine .entries ?_ (List.Perm.swap _ _ _)
  change [Cbor.encodeText "a", Cbor.encodeText "b"].Nodup
  decide

end Key.Part

theorem keys_show_content_only_drafted :
    Context.drafted.contentKey = Context.direct.contentKey ∧
      Context.contentKey {} = (Context.ofPrimitives []).contentKey ∧
      Context.contentKey ⟨some {}⟩ = (Context.ofPrimitives []).contentKey ∧
      Key.ofAnyParts [.pair (.list (some [.null, .pair .null]))] =
        Key.ofAnyParts [.pair (.list (some [.null, .turned .null]))] ∧
      Key.ofAnyParts [.text "t", .pair (.complex 1 2)] =
        Key.ofAnyParts [.text "t", .turned (.complex 1 2)] := by
  refine ⟨?_, ?_, ?_, ?_, ?_⟩
  · exact keys_show_content_only.1 _ _ Context.built_drafted Context.built_direct
      Context.drafted_sameContent_direct
  · exact keys_show_content_only.1 _ _ .missing (.ofPrimitives [])
      Context.missing_sameContent_empty.1
  · exact keys_show_content_only.1 _ _ .bare (.ofPrimitives [])
      Context.missing_sameContent_empty.2
  · refine keys_show_content_only.2 _ _ (.cons ?_ .nil)
    exact .value [] _ _ (.item [.null] [] (Key.Part.reordered_turned .null))
  · exact keys_show_content_only.2 _ _ (.cons (.refl _) (.cons (Key.Part.reordered_turned _) .nil))

end Synthesis
