import Synthesis.Proofs.Nesting

/-!
A signature can be written in two forms: with colons behind the names and an arrow in front of the
result type, or after the word "func" with blanks in these places. Either form is read back as the
signature that was written, whatever the number of parameters and the depth of their types.
-/
namespace Synthesis

namespace Text

section Strip

variable {p : Char → Bool} {cs : List Char}

theorem dropWhile_of_forall (h : ∀ c ∈ cs, p c = false) : cs.dropWhile p = cs := by
  cases cs with
  | nil => rfl
  | cons c cs => exact List.dropWhile_cons_of_neg (by simp [h c List.mem_cons_self])

theorem strip_of_forall (h : ∀ c ∈ cs, p c = false) : strip p cs = cs := by
  unfold strip dropRightWhile
  rw [dropWhile_of_forall h, dropWhile_of_forall fun c hc => h c (List.mem_reverse.mp hc),
    List.reverse_reverse]

end Strip

section Cut

variable {sep : Char} {before : List Char}

theorem cutAt_append_cons (h : sep ∉ before) (after : List Char) :
    cutAt sep (before ++ sep :: after) = some (before, after) := by
  induction before with
  | nil => simp [cutAt]
  | cons c before ih =>
    obtain ⟨hc, hbefore⟩ := not_or.mp (mt List.mem_cons.mpr h)
    simp [cutAt, Ne.symm hc, ih hbefore]

theorem cutAt_of_notMem (h : sep ∉ before) : cutAt sep before = none := by
  induction before with
  | nil => rfl
  | cons c before ih =>
    obtain ⟨hc, hbefore⟩ := not_or.mp (mt List.mem_cons.mpr h)
    simp [cutAt, Ne.symm hc, ih hbefore]

end Cut

end Text

namespace Signature

open Text

/-- A name has no blanks, colons, commas and brackets in it. -/
structure IsName (name : String) : Prop where
  nonempty : name ≠ ""
  plain : ∀ c ∈ name.toList, isBlank c = false ∧ c ≠ ':' ∧ matters c = false

/-- A type has no blanks around it and closes what it opens, and its commas stand inside. -/
structure IsType (type : String) : Prop where
  nonempty : type ≠ ""
  trimmed : trim type = type
  nests : Nests [] type.toList

instance (name : String) : Decidable (IsName name) :=
  decidable_of_iff
    (name ≠ "" ∧ name.toList.all (fun c => !isBlank c && c != ':' && !matters c) = true)
    ⟨fun h => ⟨h.1, by simpa [and_assoc] using h.2⟩,
      fun h => ⟨h.nonempty, by simpa [and_assoc] using h.plain⟩⟩

instance (type : String) : Decidable (IsType type) :=
  decidable_of_iff (type ≠ "" ∧ trim type = type ∧ Nests [] type.toList)
    ⟨fun h => ⟨h.1, h.2.1, h.2.2⟩, fun h => ⟨h.nonempty, h.trimmed, h.nests⟩⟩

theorem IsName.ne_nil {name : String} (h : IsName name) : name.toList ≠ [] := by
  simpa using h.nonempty

theorem IsName.trim_eq {name : String} (h : IsName name) : trim name = name := by
  rw [trim, strip_of_forall fun c hc => (h.plain c hc).1, String.ofList_toList]

theorem IsName.isPiece {name : String} (h : IsName name) : IsPiece name.toList :=
  isPiece_of_not_matters fun c hc => (h.plain c hc).2.2

theorem IsName.notMem {name : String} (h : IsName name) {c : Char}
    (hc : isBlank c = true ∨ c = ':' ∨ matters c = true) : c ∉ name.toList := by
  intro hmem
  obtain ⟨hblank, hcolon, hmatters⟩ := h.plain c hmem
  simp [hblank, hcolon, hmatters] at hc

theorem IsName.passes {name : String} (h : IsName name) : Passes name.toList :=
  passes_of_notMem (h.notMem (by decide)) (h.notMem (by decide))

theorem trimmed_of_trim {text : String} (h : trim text = text) : trimmed text.toList = text := h

theorem strip_of_trim {text : String} (h : trim text = text) :
    strip isBlank text.toList = text.toList := by
  have htext := congrArg String.toList h
  rwa [trim, String.toList_ofList] at htext

theorem IsType.ne_nil {type : String} (h : IsType type) : type.toList ≠ [] := by
  simpa using h.nonempty

/-- What begins and ends with trimmed texts has no blanks around it. -/
theorem strip_between {first last : String} (hfirst : trim first = first) (hlast : trim last = last)
    (hsome : first.toList ≠ []) (hsome' : last.toList ≠ []) (between : List Char) :
    strip isBlank (first.toList ++ (between ++ last.toList)) =
      first.toList ++ (between ++ last.toList) :=
  strip_append_append (strip_of_trim hfirst) (strip_of_trim hlast) hsome hsome' between

/-- The parameter of a piece at its place, unless the piece is blank. -/
def read? (x : List Char × Nat) : Option Param :=
  let part := strip isBlank x.1
  if part.isEmpty then none else some (param part x.2)

/-- The parameters of a text, the first piece of which is at the given place. -/
def reads (place : Nat) (cs : List Char) : List Param :=
  ((splitTop 0 cs).zipIdx place).filterMap read?

/-- At any place the piece is read as this parameter. -/
def ReadsAs (piece : List Char) (p : Param) : Prop := ∀ place, read? (piece, place) = some p

theorem reads_of_blank {lead : List Char} (h : ∀ c ∈ lead, isBlank c = true) (place : Nat) :
    reads place lead = [] := by
  have hstrip : strip isBlank lead = [] := by
    have hnone := strip_append_right h []
    rw [List.nil_append] at hnone
    rw [hnone]
    rfl
  rw [reads, (isPiece_of_blank h).splitTop_eq]
  simp [read?, hstrip]

theorem reads_piece {piece : List Char} {p : Param} (hpiece : IsPiece piece)
    (hreads : ReadsAs piece p) (place : Nat) : reads place piece = [p] := by
  rw [reads, hpiece.splitTop_eq]
  simp [hreads place]

theorem reads_piece_comma {piece : List Char} {p : Param} (hpiece : IsPiece piece)
    (hreads : ReadsAs piece p) (place : Nat) (rest : List Char) :
    reads place (piece ++ ',' :: rest) = p :: reads (place + 1) rest := by
  rw [reads, hpiece.splitTop_comma, List.zipIdx_cons, List.filterMap_cons_some (hreads place)]
  rfl

/-- A name and a type with a colon, or with a blank, between them. -/
def written (between : String) (p : Param) : String := p.name ++ between ++ p.type

theorem toList_written (between : String) (p : Param) :
    (written between p).toList = p.name.toList ++ (between.toList ++ p.type.toList) := by
  simp [written]

/-- The texts with commas and blanks between them. -/
def listed (texts : List String) : List Char := (join ", " texts).toList

theorem listed_cons_cons (x y : String) (rest : List String) :
    listed (x :: y :: rest) = x.toList ++ ',' :: ' ' :: listed (y :: rest) := by
  simp [listed, join]

theorem Passes.listed {texts : List String} (h : ∀ x ∈ texts, Passes x.toList) :
    Passes (listed texts) := by
  induction texts with
  | nil => exact passes_nil
  | cons x rest ih =>
    obtain ⟨hx, hrest⟩ := List.forall_mem_cons.mp h
    cases rest with
    | nil => exact hx
    | cons y rest =>
      have hcomma : Passes [',', ' '] := passes_of_notMem (by decide) (by decide)
      have hall := hx.append (hcomma.append (ih hrest))
      rw [listed_cons_cons]
      simpa using hall

/-- Pieces that are read as these parameters, with commas between them. -/
theorem reads_listed {write : Param → String} {ps : List Param}
    (hpiece : ∀ p ∈ ps, IsPiece (write p).toList)
    (hreads : ∀ p ∈ ps, ∀ lead : List Char, (∀ c ∈ lead, isBlank c = true) →
      ReadsAs (lead ++ (write p).toList) p)
    {lead : List Char} (hlead : ∀ c ∈ lead, isBlank c = true) (place : Nat) :
    reads place (lead ++ listed (ps.map write)) = ps := by
  induction ps generalizing lead place with
  | nil =>
    rw [List.map_nil, listed, join, String.toList_empty, List.append_nil]
    exact reads_of_blank hlead place
  | cons p ps ih =>
    obtain ⟨hp, hps⟩ := List.forall_mem_cons.mp hpiece
    obtain ⟨hread, hrest⟩ := List.forall_mem_cons.mp hreads
    have hblank := isPiece_of_blank hlead
    cases ps with
    | nil => exact reads_piece (hblank.append hp) (hread lead hlead) place
    | cons q ps =>
      rw [List.map_cons, List.map_cons, listed_cons_cons, ← List.append_assoc,
        reads_piece_comma (hblank.append hp) (hread lead hlead)]
      have hnext : ∀ c ∈ [' '], isBlank c = true := by simp [isBlank]
      exact congrArg (p :: ·) (ih hps hrest hnext (place + 1))

/-- A parameter that can be written: its name and its type are well formed. -/
structure IsWritable (p : Param) : Prop where
  name : IsName p.name
  type : IsType p.type

instance (p : Param) : Decidable (IsWritable p) :=
  decidable_of_iff (IsName p.name ∧ IsType p.type)
    ⟨fun h => ⟨h.1, h.2⟩, fun h => ⟨h.name, h.type⟩⟩

section Param

variable {p : Param} {lead : List Char}

/-- A piece that begins with a name and a colon has its type behind them. -/
theorem read?_colon {name : String} (hlead : ∀ c ∈ lead, isBlank c = true) (hname : IsName name)
    (tail : List Char) (place : Nat) :
    read? (lead ++ (name.toList ++ ':' :: tail), place) = some ⟨name, trimmed tail⟩ := by
  obtain ⟨a, as, ha⟩ := List.exists_cons_of_ne_nil hname.ne_nil
  have hstart : isBlank a = false := (hname.plain a (by simp [ha])).1
  have hstrip : strip isBlank (lead ++ (name.toList ++ ':' :: tail)) =
      name.toList ++ ':' :: dropRightWhile isBlank tail := by
    rw [strip_append_left hlead, ha, List.cons_append, strip_enclosed hstart (by decide)]
    rfl
  have hparam : param (name.toList ++ ':' :: dropRightWhile isBlank tail) place =
      ⟨name, trimmed tail⟩ := by
    unfold param
    dsimp only
    rw [cutAt_append_cons (hname.notMem (by decide))]
    dsimp only
    rw [trimmed_of_trim hname.trim_eq, trimmed, strip_dropRightWhile, trimmed]
  unfold read?
  dsimp only
  rw [hstrip, if_neg (by simp), hparam]

theorem IsWritable.isPiece (h : IsWritable p) {between : String}
    (hbetween : between.toList.all (!matters ·) = true) : IsPiece (written between p).toList := by
  rw [toList_written]
  exact h.name.isPiece.append ((isPiece_of_all hbetween).append h.type.nests.isPiece)

theorem IsWritable.passes (h : IsWritable p) {between : String}
    (hbetween : '(' ∉ between.toList ∧ ')' ∉ between.toList) :
    Passes (written between p).toList := by
  rw [toList_written]
  exact h.name.passes.append ((passes_of_notMem hbetween.1 hbetween.2).append h.type.nests.passes)

theorem param_blank {name type : String} (hname : IsName name) (htype : trim type = type)
    (hcolon : ':' ∉ type.toList) (place : Nat) :
    param (name.toList ++ (" ".toList ++ type.toList)) place = ⟨name, type⟩ := by
  have hnone : cutAt ':' (name.toList ++ (" ".toList ++ type.toList)) = none := by
    refine cutAt_of_notMem (List.not_mem_append (hname.notMem (by decide)) ?_)
    exact List.not_mem_append (by decide) hcolon
  have hcut : cutAt ' ' (name.toList ++ (" ".toList ++ type.toList)) =
      some (name.toList, type.toList) :=
    cutAt_append_cons (hname.notMem (by decide)) type.toList
  have hbracket : hasTypeBracket name.toList = false := by
    rw [hasTypeBracket, List.any_eq_false]
    intro c hc
    have hplain := (hname.plain c hc).2.2
    simp only [matters, isOpening, Bool.or_eq_false_iff] at hplain
    simp [hplain]
  unfold param
  dsimp only
  rw [hnone, hcut]
  dsimp only
  rw [hbracket, if_neg (by simp), trimmed_of_trim hname.trim_eq, trimmed_of_trim htype]

theorem trimmed_blank_cons {text : String} (h : trim text = text) :
    trimmed (' ' :: text.toList) = text := by
  rw [← List.singleton_append, trimmed, strip_append_left (by simp [isBlank])]
  exact h

theorem IsWritable.readsAs_colon (h : IsWritable p) (hlead : ∀ c ∈ lead, isBlank c = true) :
    ReadsAs (lead ++ (written ": " p).toList) p := by
  intro place
  have hread := read?_colon hlead h.name (' ' :: p.type.toList) place
  rw [trimmed_blank_cons h.type.trimmed] at hread
  rw [toList_written]
  exact hread

theorem IsWritable.readsAs_blank (h : IsWritable p) (hcolon : ':' ∉ p.type.toList)
    (hlead : ∀ c ∈ lead, isBlank c = true) : ReadsAs (lead ++ (written " " p).toList) p := by
  intro place
  have hstrip := strip_between h.name.trim_eq h.type.trimmed h.name.ne_nil h.type.ne_nil
    " ".toList
  unfold read?
  dsimp only
  rw [toList_written, strip_append_left hlead, hstrip, if_neg (by simp),
    param_blank h.name h.type.trimmed hcolon]

end Param

section Result

/-- A text is read by what stands in its parentheses and behind them; in front there is nothing or
a word. -/
theorem parse?_enclosed {raw : String} {lead inner rest : List Char}
    (hlead : lead = [] ∨ lead = "func".toList)
    (hraw : raw.toList = lead ++ '(' :: (inner ++ ')' :: rest)) (h : Passes inner) :
    parse? raw =
      some ⟨paramsOf inner, trimmed (dropLead "->".toList (strip isBlank rest))⟩ := by
  have htext : strip isBlank (dropLead "func".toList (strip isBlank raw.toList)) =
      '(' :: (inner ++ ')' :: dropRightWhile isBlank (dropRightWhile isBlank rest)) := by
    rw [hraw]
    rcases hlead with rfl | rfl
    · rw [List.nil_append, strip_enclosed (by decide) (by decide)]
      exact strip_enclosed (by decide) (by decide) _ _
    · have hword : "func".toList ++ '(' :: (inner ++ ')' :: rest) =
          'f' :: (('u' :: 'n' :: 'c' :: '(' :: inner) ++ ')' :: rest) := rfl
      rw [hword, strip_enclosed (by decide) (by decide)]
      exact strip_enclosed (by decide) (by decide) _ _
  unfold parse?
  rw [htext]
  dsimp only
  rw [if_pos (by rfl), h.matching?_enclosed]
  dsimp only
  rw [strip_dropRightWhile, strip_dropRightWhile]

/-- Behind an arrow stands the result type. -/
theorem returns_arrow {returns : String} (h : trim returns = returns) :
    trimmed (dropLead "->".toList (strip isBlank (" -> ".toList ++ returns.toList))) = returns := by
  have hstrip : strip isBlank (" -> ".toList ++ returns.toList) =
      '-' :: '>' :: dropRightWhile isBlank (' ' :: returns.toList) := by
    have hblank : ∀ c ∈ [' '], isBlank c = true := by simp [isBlank]
    have hshape : " -> ".toList ++ returns.toList =
        [' '] ++ '-' :: ([] ++ '>' :: ' ' :: returns.toList) := rfl
    rw [hshape, strip_append_left hblank, strip_enclosed (by decide) (by decide)]
    rfl
  have hdrop : dropLead "->".toList ('-' :: '>' :: dropRightWhile isBlank (' ' :: returns.toList)) =
      dropRightWhile isBlank (' ' :: returns.toList) := rfl
  rw [hstrip, hdrop, trimmed, strip_dropRightWhile]
  exact trimmed_blank_cons h

/-- Without an arrow the result type stands behind a blank, but must not begin with an arrow. -/
theorem returns_blank {returns : String} (h : trim returns = returns)
    (harrow : startsWith returns "->" = false) :
    trimmed (dropLead "->".toList (strip isBlank (" ".toList ++ returns.toList))) = returns := by
  have hstrip : strip isBlank (" ".toList ++ returns.toList) = returns.toList := by
    rw [strip_append_left (by simp [isBlank]), strip_of_trim h]
  unfold startsWith at harrow
  rw [hstrip, dropLead, harrow, if_neg (by simp), trimmed_of_trim h]

end Result

/-- The signature with colons and an arrow. -/
def text (sig : Signature) : String :=
  "(" ++ join ", " (sig.params.map (written ": ")) ++ ") -> " ++ sig.returns

/-- The signature after the word "func". -/
def funcText (sig : Signature) : String :=
  "func(" ++ join ", " (sig.params.map (written " ")) ++ ") " ++ sig.returns

theorem toList_text (sig : Signature) :
    sig.text.toList = [] ++ '(' :: (listed (sig.params.map (written ": ")) ++
      ')' :: (" -> ".toList ++ sig.returns.toList)) := by
  simp [text, listed]

theorem toList_funcText (sig : Signature) :
    sig.funcText.toList = "func".toList ++ '(' :: (listed (sig.params.map (written " ")) ++
      ')' :: (" ".toList ++ sig.returns.toList)) := by
  simp [funcText, listed]

/-- Signatures of well-formed names and types are read back from either form. -/
theorem text_reads_back (sig : Signature) (hparams : ∀ p ∈ sig.params, IsWritable p)
    (hreturns : trim sig.returns = sig.returns) :
    parse? sig.text = some sig ∧
      ((∀ p ∈ sig.params, ':' ∉ p.type.toList) → startsWith sig.returns "->" = false →
        parse? sig.funcText = some sig) := by
  have hpasses : ∀ between : String, '(' ∉ between.toList ∧ ')' ∉ between.toList →
      Passes (listed (sig.params.map (written between))) := by
    intro between hbetween
    refine Passes.listed fun x hx => ?_
    obtain ⟨p, hp, rfl⟩ := List.mem_map.mp hx
    exact (hparams p hp).passes hbetween
  constructor
  · have hreads : paramsOf (listed (sig.params.map (written ": "))) = sig.params :=
      reads_listed (fun p hp => (hparams p hp).isPiece (by decide))
        (fun p hp lead hlead => (hparams p hp).readsAs_colon hlead) (List.forall_mem_nil _) 0
    rw [parse?_enclosed (Or.inl rfl) (toList_text sig) (hpasses ": " (by decide)), hreads,
      returns_arrow hreturns]
  · intro hcolon harrow
    have hreads : paramsOf (listed (sig.params.map (written " "))) = sig.params :=
      reads_listed (fun p hp => (hparams p hp).isPiece (by decide))
        (fun p hp lead hlead => (hparams p hp).readsAs_blank (hcolon p hp) hlead)
        (List.forall_mem_nil _) 0
    rw [parse?_enclosed (Or.inr rfl) (toList_funcText sig) (hpasses " " (by decide)), hreads,
      returns_blank hreturns harrow]

/-- Types of several depths, one of them with commas and blanks. -/
def lookups : Signature where
  params := [⟨"items", "List[int]"⟩, ⟨"lookup", "Dict[str, fn(int, <T>)]"⟩, ⟨"k", "\x7b\x7d"⟩]
  returns := "int"

theorem text_reads_back_lookups :
    lookups.text =
      "(items: List[int], lookup: Dict[str, fn(int, <T>)], k: \x7b\x7d) -> int" ∧
    parse? lookups.text = some lookups ∧
    lookups.funcText =
      "func(items List[int], lookup Dict[str, fn(int, <T>)], k \x7b\x7d) int" ∧
    parse? lookups.funcText = some lookups := by
  have hparams : ∀ p ∈ lookups.params, IsWritable p := by decide
  obtain ⟨htext, hfunc⟩ := text_reads_back lookups hparams (by decide)
  exact ⟨by decide, htext, by decide, hfunc (by decide) (by decide)⟩

end Signature

end Synthesis
