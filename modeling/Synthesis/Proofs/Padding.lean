import Synthesis.Proofs.Searching
import Synthesis.Proofs.TestKinds
import Synthesis.Leak
import Mathlib.Data.List.TakeWhile

/-!
Blanks around a line do not matter to a pattern whose matches begin and end with other
characters, and which asks of a place only whether it is at the edge of a word: a match stays
inside the line without the blanks, and it does not see what stands further out. The patterns of
the built-in leak policy are of this kind.
-/
namespace Synthesis

namespace Text

/-- The code points of blank characters. -/
def blanks : List Nat :=
  List.range' 9 5 ++ [0x20, 0x85, 0xA0, 0x1680] ++ List.range' 0x2000 11 ++
    [0x2028, 0x2029, 0x202F, 0x205F, 0x3000]

theorem mem_blanks {c : Char} (h : isBlank c = true) : c.toNat ∈ blanks := by
  simp only [isBlank, Bool.or_eq_true, Bool.and_eq_true, decide_eq_true_eq, beq_iff_eq] at h
  simp only [blanks, List.mem_append, List.mem_range'_1, List.mem_cons, List.not_mem_nil, or_false]
  omega

namespace CaseOrbit

theorem table_has_no_blank {r : Run} (hr : r ∈ table) : ∀ n ∈ blanks, r.has n = false := by
  have hlines : ∀ line ∈ tableText, (((splitAt ' ' line.toList).filterMap Run.ofText?).all
      fun r => blanks.all fun n => !r.has n) = true := by
    unfold tableText
    simp only [List.forall_mem_cons, List.not_mem_nil, false_implies, implies_true, and_true]
    and_intros
    all_goals
      -- The characters of a line are at hand at once, instead of being decoded.
      rw [String.toList_ofList]
      decide +kernel
  obtain ⟨line, hline, hmem⟩ := List.mem_flatMap.mp hr
  intro n hn
  have hblank := List.all_eq_true.mp (List.all_eq_true.mp (hlines line hline) r hmem) n hn
  simpa using hblank

/-- Blanks have no case. -/
theorem caseOrbit_blank {n : Nat} (hn : n ∈ blanks) : caseOrbit n = [n] := by
  have hnext : next n = n := by
    unfold next
    split
    · have hall : ∀ n ∈ blanks, n < 0x80 → next n = n := by decide
      have hsmall := hall n hn (by assumption)
      unfold next at hsmall
      rwa [if_pos (by assumption)] at hsmall
    · have hnone : table.find? (·.has n) = none := by
        rw [List.find?_eq_none]
        intro r hr
        simp [table_has_no_blank hr n hn]
      rw [hnone]
  unfold caseOrbit
  rw [hnext]
  simp [walk, longest]

end CaseOrbit

end Text

namespace CharSet

mutual

/-- The set without regard to case. -/
def bare : CharSet → CharSet
  | .range lo hi => .range lo hi
  | .property p => .property p
  | .union sets => .union (bareAll sets)
  | .compl s => .compl (bare s)
  | .folded s => bare s

def bareAll : List CharSet → List CharSet
  | [] => []
  | s :: ss => bare s :: bareAll ss

end

mutual

theorem has_bare {n : Nat} (hn : n ∈ Text.blanks) : ∀ s : CharSet, s.bare.has n = s.has n
  | .range lo hi => rfl
  | .property p => rfl
  | .union sets => by
    rw [bare, has, has]
    exact hasAny_bareAll hn sets
  | .compl s => by
    rw [bare, has, has, has_bare hn s]
  | .folded s => by
    rw [bare, has, Text.CaseOrbit.caseOrbit_blank hn, has_bare hn s]
    simp

theorem hasAny_bareAll {n : Nat} (hn : n ∈ Text.blanks) :
    ∀ sets : List CharSet, hasAny (bareAll sets) n = hasAny sets n
  | [] => rfl
  | s :: ss => by
    rw [bareAll, hasAny, hasAny, has_bare hn s, hasAny_bareAll hn ss]

end

/-- There is no blank in the set. -/
def isBlankFree (s : CharSet) : Bool := Text.blanks.all fun n => !s.bare.has n

theorem not_isBlank_of_contains {s : CharSet} {c : Char} (h : s.isBlankFree = true)
    (hc : s.contains c = true) : Text.isBlank c = false := by
  cases hblank : Text.isBlank c with
  | false => rfl
  | true =>
    have hn := Text.mem_blanks hblank
    have hfree := List.all_eq_true.mp h _ hn
    rw [has_bare hn, show s.has c.toNat = true from hc] at hfree
    cases hfree

end CharSet

namespace Pattern

/-- A match that takes a character takes no blank first. -/
def startsSolid : Pattern → Bool
  | .empty | .test _ => true
  | .char set => set.isBlankFree
  | .seq a b => a.startsSolid && (!a.mayBeEmpty || b.startsSolid)
  | .alt a b => a.startsSolid && b.startsSolid
  | .optional a _ | .repeated a _ | .star a _ => a.startsSolid

/-- A match that takes a character takes no blank last. -/
def endsSolid : Pattern → Bool
  | .empty | .test _ => true
  | .char set => set.isBlankFree
  | .seq a b => b.endsSolid && (!b.mayBeEmpty || a.endsSolid)
  | .alt a b => a.endsSolid && b.endsSolid
  | .optional a _ | .repeated a _ | .star a _ => a.endsSolid

/-- Places are only asked for the edge of a word. -/
def asksForWords : Pattern → Bool
  | .empty | .char _ => true
  | .test t => t == .wordEdge || t == .noWordEdge
  | .seq a b | .alt a b => a.asksForWords && b.asksForWords
  | .optional a _ | .repeated a _ | .star a _ => a.asksForWords

/-- Matches take a character, begin and end with other characters than blanks, and do not see
further than to the next one. -/
def isSolid (q : Pattern) : Bool :=
  !q.mayBeEmpty && q.startsSolid && q.endsSolid && q.asksForWords

variable {q : Pattern} {x y : Place}

/-- From one place to another some characters are taken, and the last of them then stands in
front. -/
def Takes (x y : Place) (u : List Char) : Prop :=
  x.rest = u ++ y.rest ∧ y.before = u.getLast?.or x.before

theorem takes_nil (x : Place) : Takes x x [] := ⟨rfl, rfl⟩

theorem Takes.trans {x y z : Place} {u v : List Char} (h : Takes x y u) (h' : Takes y z v) :
    Takes x z (u ++ v) := by
  refine ⟨by rw [h.1, h'.1, List.append_assoc], ?_⟩
  rw [h'.2, h.2, List.getLast?_append, Option.or_assoc]

theorem Matches.takes (h : q.Matches x y) : ∃ u, Takes x y u := by
  induction h with
  | empty x => exact ⟨[], takes_nil x⟩
  | @char set c b cs hc => exact ⟨[c], rfl, rfl⟩
  | @test t x ht => exact ⟨[], takes_nil x⟩
  | seq _ _ iha ihb =>
    obtain ⟨u, hu⟩ := iha
    obtain ⟨v, hv⟩ := ihb
    exact ⟨u ++ v, hu.trans hv⟩
  | first b _ iha => exact iha
  | second a _ ihb => exact ihb
  | absent a greedy x => exact ⟨[], takes_nil x⟩
  | present greedy _ iha => exact iha
  | once greedy _ iha => exact iha
  | again _ _ iha ihmore =>
    obtain ⟨u, hu⟩ := iha
    obtain ⟨v, hv⟩ := ihmore
    exact ⟨u ++ v, hu.trans hv⟩
  | none a greedy x => exact ⟨[], takes_nil x⟩
  | more _ _ iha ihmore =>
    obtain ⟨u, hu⟩ := iha
    obtain ⟨v, hv⟩ := ihmore
    exact ⟨u ++ v, hu.trans hv⟩

theorem Takes.length_le {u : List Char} (h : Takes x y u) : y.rest.length ≤ x.rest.length := by
  rw [h.1, List.length_append]
  omega

/-- Without a character the place stays the same. -/
theorem Takes.eq_of_length {u : List Char} (h : Takes x y u)
    (hlength : x.rest.length ≤ y.rest.length) : x = y := by
  have hnil : u = [] := by
    have hrest := congrArg List.length h.1
    rw [List.length_append] at hrest
    exact List.length_eq_zero_iff.mp (by omega)
  subst hnil
  obtain ⟨hrest, hbefore⟩ := h
  cases x
  cases y
  simp_all

/-- A match without a character is one of a pattern that may be empty. -/
theorem Matches.mayBeEmpty (h : q.Matches x y) (hlength : x.rest.length ≤ y.rest.length) :
    q.mayBeEmpty = true := by
  induction h with
  | empty x => rfl
  | char b cs hc =>
    simp only [List.length_cons] at hlength
    omega
  | test ht => rfl
  | seq ha hb iha ihb =>
    obtain ⟨u, hu⟩ := ha.takes
    obtain ⟨v, hv⟩ := hb.takes
    have hxy := hu.length_le
    have hyz := hv.length_le
    rw [Pattern.mayBeEmpty, iha (by omega), ihb (by omega)]
    rfl
  | first b _ iha => rw [Pattern.mayBeEmpty, iha hlength, Bool.true_or]
  | second a _ ihb => rw [Pattern.mayBeEmpty, ihb hlength, Bool.or_true]
  | absent => rfl
  | present => rfl
  | once greedy _ iha => exact iha hlength
  | again ha hmore iha ihmore =>
    obtain ⟨u, hu⟩ := ha.takes
    obtain ⟨v, hv⟩ := hmore.takes
    have hxy := hu.length_le
    have hyz := hv.length_le
    exact iha (by omega)
  | none => rfl
  | more => rfl

/-- A match takes a character, or stays at its place. -/
theorem Matches.length_lt_or_eq (h : q.Matches x y) : y.rest.length < x.rest.length ∨ x = y := by
  obtain ⟨u, hu⟩ := h.takes
  have hle := hu.length_le
  by_cases hlt : y.rest.length < x.rest.length
  · exact Or.inl hlt
  · exact Or.inr (hu.eq_of_length (by omega))

/-- The first character of a match is no blank. -/
theorem Matches.starts (h : q.Matches x y) (hq : q.startsSolid = true)
    (hlt : y.rest.length < x.rest.length) :
    ∃ c cs, x.rest = c :: cs ∧ Text.isBlank c = false := by
  induction h with
  | empty x => omega
  | @char set c b cs hc => exact ⟨c, cs, rfl, CharSet.not_isBlank_of_contains hq hc⟩
  | test ht => omega
  | seq ha hb iha ihb =>
    obtain ⟨hqa, hqb⟩ := Bool.and_eq_true_iff.mp hq
    rcases ha.length_lt_or_eq with hfirst | rfl
    · exact iha hqa hfirst
    · rw [ha.mayBeEmpty (Nat.le_refl _)] at hqb
      exact ihb hqb hlt
  | first b _ iha => exact iha (Bool.and_eq_true_iff.mp hq).1 hlt
  | second a _ ihb => exact ihb (Bool.and_eq_true_iff.mp hq).2 hlt
  | absent => omega
  | present greedy _ iha => exact iha hq hlt
  | once greedy _ iha => exact iha hq hlt
  | again ha _ iha ihmore =>
    rcases ha.length_lt_or_eq with hfirst | rfl
    · exact iha hq hfirst
    · exact ihmore hq hlt
  | none => omega
  | more ha _ iha ihmore =>
    rcases ha.length_lt_or_eq with hfirst | rfl
    · exact iha hq hfirst
    · exact ihmore hq hlt

/-- The last character of a match is no blank. -/
theorem Matches.ends (h : q.Matches x y) (hq : q.endsSolid = true)
    (hlt : y.rest.length < x.rest.length) :
    ∃ c, y.before = some c ∧ Text.isBlank c = false := by
  induction h with
  | empty x => omega
  | @char set c b cs hc => exact ⟨c, rfl, CharSet.not_isBlank_of_contains hq hc⟩
  | test ht => omega
  | seq ha hb iha ihb =>
    obtain ⟨hqb, hqa⟩ := Bool.and_eq_true_iff.mp hq
    rcases hb.length_lt_or_eq with hlast | rfl
    · exact ihb hqb hlast
    · rw [hb.mayBeEmpty (Nat.le_refl _)] at hqa
      exact iha hqa hlt
  | first b _ iha => exact iha (Bool.and_eq_true_iff.mp hq).1 hlt
  | second a _ ihb => exact ihb (Bool.and_eq_true_iff.mp hq).2 hlt
  | absent => omega
  | present greedy _ iha => exact iha hq hlt
  | once greedy _ iha => exact iha hq hlt
  | again _ hmore iha ihmore =>
    rcases hmore.length_lt_or_eq with hlast | rfl
    · exact ihmore hq hlast
    · exact iha hq hlt
  | none => omega
  | more _ hmore iha ihmore =>
    rcases hmore.length_lt_or_eq with hlast | rfl
    · exact ihmore hq hlast
    · exact iha hq hlt

/-- A word character stands there. -/
def isWord (c : Option Char) : Bool := c.any Text.isWordChar

/-- Two places before the same characters, behind which the texts go on with `r` and `r'`, and
with alike neighbours in front. -/
structure Alike (r r' : List Char) (x x' : Place) : Prop where
  before : isWord x.before = isWord x'.before
  rest : ∃ u, x.rest = u ++ r ∧ x'.rest = u ++ r'

variable {r r' : List Char} {x' : Place}

theorem Alike.passes (hhead : isWord r.head? = isWord r'.head?) (h : Alike r r' x x')
    {t : Place.Test} (ht : (t == .wordEdge || t == .noWordEdge) = true) :
    x.passes t = x'.passes t := by
  obtain ⟨hbefore, u, hu, hu'⟩ := h
  have hnext : isWord x.rest.head? = isWord x'.rest.head? := by
    rw [hu, hu']
    cases u with
    | nil => exact hhead
    | cons c cs => rfl
  have hedge : x.atWordEdge = x'.atWordEdge := by
    unfold Place.atWordEdge
    unfold isWord at hbefore hnext
    rw [hbefore, hnext]
  rcases Bool.or_eq_true_iff.mp ht with ht | ht
  · rw [eq_of_beq ht]
    exact hedge
  · rw [eq_of_beq ht]
    exact congrArg not hedge

/-- A match that does not reach into `r` goes the same way where `r'` follows. -/
theorem Matches.transport (hhead : isWord r.head? = isWord r'.head?) (h : q.Matches x y)
    (hq : q.asksForWords = true) (halike : Alike r r' x x') (hy : ∃ v, y.rest = v ++ r) :
    ∃ y', q.Matches x' y' ∧ Alike r r' y y' := by
  -- A place in the middle is before `r` when the last one is.
  have hmiddle : ∀ {q : Pattern} {y z : Place}, q.Matches y z → (∃ v, z.rest = v ++ r) →
      ∃ v, y.rest = v ++ r := by
    rintro q y z hmatch ⟨v, hv⟩
    obtain ⟨u, hu, _⟩ := hmatch.takes
    exact ⟨u ++ v, by rw [hu, hv, List.append_assoc]⟩
  induction h generalizing x' with
  | empty x => exact ⟨x', .empty x', halike⟩
  | @char set c b cs hc =>
    obtain ⟨v, rfl : cs = v ++ r⟩ := hy
    obtain ⟨_, u, hu, hu'⟩ := halike
    have huv : c :: v = u := List.append_cancel_right hu
    subst huv
    obtain ⟨b', rest⟩ := x'
    obtain rfl : rest = c :: (v ++ r') := hu'
    exact ⟨⟨some c, v ++ r'⟩, .char b' (v ++ r') hc, rfl, v, rfl, rfl⟩
  | test ht =>
    refine ⟨x', .test ?_, halike⟩
    rw [← halike.passes hhead hq]
    exact ht
  | seq _ hb iha ihb =>
    obtain ⟨hqa, hqb⟩ := Bool.and_eq_true_iff.mp hq
    obtain ⟨y', hy', halike'⟩ := iha hqa halike (hmiddle hb hy)
    obtain ⟨z', hz', halike''⟩ := ihb hqb halike' hy
    exact ⟨z', .seq hy' hz', halike''⟩
  | first b _ iha =>
    obtain ⟨y', hy', halike'⟩ := iha (Bool.and_eq_true_iff.mp hq).1 halike hy
    exact ⟨y', .first b hy', halike'⟩
  | second a _ ihb =>
    obtain ⟨y', hy', halike'⟩ := ihb (Bool.and_eq_true_iff.mp hq).2 halike hy
    exact ⟨y', .second a hy', halike'⟩
  | absent a greedy x => exact ⟨x', .absent a greedy x', halike⟩
  | present greedy _ iha =>
    obtain ⟨y', hy', halike'⟩ := iha hq halike hy
    exact ⟨y', .present greedy hy', halike'⟩
  | once greedy _ iha =>
    obtain ⟨y', hy', halike'⟩ := iha hq halike hy
    exact ⟨y', .once greedy hy', halike'⟩
  | again _ hmore iha ihmore =>
    obtain ⟨y', hy', halike'⟩ := iha hq halike (hmiddle hmore hy)
    obtain ⟨z', hz', halike''⟩ := ihmore hq halike' hy
    exact ⟨z', .again hy' hz', halike''⟩
  | none a greedy x => exact ⟨x', .none a greedy x', halike⟩
  | more _ hmore iha ihmore =>
    obtain ⟨y', hy', halike'⟩ := iha hq halike (hmiddle hmore hy)
    obtain ⟨z', hz', halike''⟩ := ihmore hq halike' hy
    exact ⟨z', .more hy' hz', halike''⟩

/-- A match stays one when what is further out is replaced by something alike. -/
theorem Matches.reframe {left left' right right' f u g : List Char} (hq : q.asksForWords = true)
    (hleft : isWord left.getLast? = isWord left'.getLast?)
    (hright : isWord right.head? = isWord right'.head?) (hy : y.rest = g ++ right)
    (h : q.Matches ⟨(left ++ f).getLast?, u ++ (g ++ right)⟩ y) :
    ∃ y', q.Matches ⟨(left' ++ f).getLast?, u ++ (g ++ right')⟩ y' := by
  have hhead : isWord (g ++ right).head? = isWord (g ++ right').head? := by
    cases g with
    | nil => exact hright
    | cons e g => rfl
  have hfront : isWord (left ++ f).getLast? = isWord (left' ++ f).getLast? := by
    rw [List.getLast?_append, List.getLast?_append]
    cases f.getLast? with
    | none => exact hleft
    | some e => rfl
  have halike : Alike (g ++ right) (g ++ right') ⟨(left ++ f).getLast?, u ++ (g ++ right)⟩
      ⟨(left' ++ f).getLast?, u ++ (g ++ right')⟩ := ⟨hfront, u, rfl, rfl⟩
  obtain ⟨y', hmatch, _⟩ := h.transport hhead hq halike ⟨[], hy⟩
  exact ⟨y', hmatch⟩

/-- The pattern matches somewhere in the text. -/
def Occurs (q : Pattern) (text : List Char) : Prop :=
  ∃ n ≤ text.length, ∃ y, q.Matches (Program.placeAt text n) y

theorem occurs_iff {text : List Char} : Occurs q text ↔
    ∃ front rest, text = front ++ rest ∧ ∃ y, q.Matches ⟨front.getLast?, rest⟩ y := by
  constructor
  · rintro ⟨n, _, y, hmatch⟩
    exact ⟨text.take n, text.drop n, (List.take_append_drop n text).symm, y, hmatch⟩
  · rintro ⟨front, rest, rfl, y, hmatch⟩
    refine ⟨front.length, by simp, y, ?_⟩
    unfold Program.placeAt
    rw [List.take_left, List.drop_left]
    exact hmatch

/-- What begins and ends with other characters than blanks stands inside of the blanks around a
text. -/
theorem inside_of_eq {front u rest left core right : List Char} {c d : Char}
    (heq : front ++ (u ++ rest) = left ++ (core ++ right)) (hfirst : u.head? = some c)
    (hlast : u.getLast? = some d) (hc : Text.isBlank c = false) (hd : Text.isBlank d = false)
    (hleft : ∀ e ∈ left, Text.isBlank e = true) (hright : ∀ e ∈ right, Text.isBlank e = true) :
    ∃ f g, front = left ++ f ∧ rest = g ++ right ∧ core = f ++ (u ++ g) := by
  have hfront : ∃ f, front = left ++ f ∧ core ++ right = f ++ (u ++ rest) := by
    rcases List.append_eq_append_iff.mp heq with ⟨as, has, htail⟩ | ⟨f, hf, htail⟩
    · cases as with
      | nil => exact ⟨[], by simpa using has.symm, htail.symm⟩
      | cons e as =>
        -- The first character would be one of the blanks on the left.
        obtain ⟨u', rfl⟩ := List.head?_eq_some_iff.mp hfirst
        obtain ⟨rfl, _⟩ := List.cons.inj htail
        rw [hleft c (by simp [has])] at hc
        cases hc
    · exact ⟨f, hf, htail⟩
  obtain ⟨f, hf, htail⟩ := hfront
  rw [← List.append_assoc] at htail
  rcases List.append_eq_append_iff.mp htail with ⟨as, has, hrest⟩ | ⟨g, hg, hrest⟩
  · cases hempty : as.getLast? with
    | none =>
      rw [List.getLast?_eq_none_iff.mp hempty] at has hrest
      exact ⟨f, [], hf, hrest.symm, by simpa using has.symm⟩
    | some e =>
      -- The last character would be one of the blanks on the right.
      have hde := congrArg List.getLast? has
      rw [List.getLast?_append, List.getLast?_append, hlast, hempty, Option.some_or,
        Option.some_or, Option.some_inj] at hde
      have hmem : e ∈ right := by
        rw [hrest]
        exact List.mem_append_left _ (List.mem_of_getLast? hempty)
      rw [hde, hright e hmem] at hd
      cases hd
  · exact ⟨f, g, hf, hrest, by rw [hg, List.append_assoc]⟩

theorem not_isWord_blank {cs : List Char} (h : ∀ c ∈ cs, Text.isBlank c = true) {c : Option Char}
    (hc : ∀ d ∈ c, d ∈ cs) : isWord c = false := by
  cases c with
  | none => rfl
  | some d => exact Text.not_isWordChar_of_isBlank (h d (hc d rfl))

/-- Blanks around a text make no difference to a solid pattern. -/
theorem Occurs.of_strip_eq (hq : q.isSolid = true) {text text' : List Char}
    (hstrip : Text.strip Text.isBlank text = Text.strip Text.isBlank text')
    (h : Occurs q text) : Occurs q text' := by
  obtain ⟨front, rest, rfl, y, hmatch⟩ := occurs_iff.mp h
  simp only [isSolid, Bool.and_eq_true, Bool.not_eq_true'] at hq
  obtain ⟨⟨⟨hempty, hstarts⟩, hends⟩, hwords⟩ := hq
  have hlt : y.rest.length < rest.length := by
    refine hmatch.length_lt_or_eq.resolve_right ?_
    rintro rfl
    rw [hmatch.mayBeEmpty (Nat.le_refl _)] at hempty
    cases hempty
  obtain ⟨c, cs, hrest, hc⟩ := hmatch.starts hstarts hlt
  obtain ⟨d, hbefore, hd⟩ := hmatch.ends hends hlt
  obtain ⟨u, hu, hlast⟩ := hmatch.takes
  dsimp only at hrest hu hlast
  subst hu
  have hsome : u ≠ [] := by
    rintro rfl
    simp at hlt
  have hfirst : u.head? = some c := by
    rw [← List.head?_append_of_ne_nil u hsome, hrest]
    rfl
  have hlast : u.getLast? = some d := by
    obtain ⟨e, he⟩ := Option.ne_none_iff_exists'.mp (mt List.getLast?_eq_none_iff.mp hsome)
    rw [he, Option.some_or] at hlast
    rw [he, ← hlast, hbefore]
  -- The match stands in the common core of the two texts.
  obtain ⟨left, right, htext, hleft, hright⟩ :=
    Text.exists_strip Text.isBlank (front ++ (u ++ y.rest))
  obtain ⟨left', right', htext', hleft', hright'⟩ := Text.exists_strip Text.isBlank text'
  rw [List.append_assoc] at htext htext'
  obtain ⟨f, g, rfl, hg, hcore⟩ := inside_of_eq htext hfirst hlast hc hd hleft hright
  rw [← hstrip, hcore] at htext'
  have hleft_same : isWord left.getLast? = isWord left'.getLast? := by
    rw [not_isWord_blank hleft fun d hd => List.mem_of_getLast? hd,
      not_isWord_blank hleft' fun d hd => List.mem_of_getLast? hd]
  have hright_same : isWord right.head? = isWord right'.head? := by
    rw [not_isWord_blank hright fun d hd => List.mem_of_head? hd,
      not_isWord_blank hright' fun d hd => List.mem_of_head? hd]
  rw [hg] at hmatch
  obtain ⟨y', hmatch'⟩ := hmatch.reframe hwords hleft_same hright_same hg
  refine occurs_iff.mpr ⟨left' ++ f, u ++ (g ++ right'), ?_, y', hmatch'⟩
  rw [htext']
  simp

end Pattern

end Synthesis
