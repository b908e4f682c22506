/-!
Blank characters and the words between them. A character is blank when it has the Unicode
property White_Space; words and trimmed texts are taken with respect to that set.
-/
namespace Synthesis.Text

/-- The Unicode property White_Space. -/
def isBlank (c : Char) : Bool :=
  let n := c.toNat
  (9 ≤ n && n ≤ 13) || n == 0x20 || n == 0x85 || n == 0xA0 || n == 0x1680
    || (0x2000 ≤ n && n ≤ 0x200A) || n == 0x2028 || n == 0x2029 || n == 0x202F
    || n == 0x205F || n == 0x3000

def dropRightWhile (p : Char → Bool) (cs : List Char) : List Char :=
  (cs.reverse.dropWhile p).reverse

def strip (p : Char → Bool) (cs : List Char) : List Char :=
  dropRightWhile p (cs.dropWhile p)

theorem exists_dropRightWhile (p : Char → Bool) (cs : List Char) :
    ∃ right, cs = dropRightWhile p cs ++ right ∧ ∀ c ∈ right, p c = true := by
  refine ⟨(cs.reverse.takeWhile p).reverse, ?_, ?_⟩
  · unfold dropRightWhile
    rw [← List.reverse_append, List.takeWhile_append_dropWhile, List.reverse_reverse]
  · intro c hc
    exact List.all_eq_true.mp List.all_takeWhile c (List.mem_reverse.mp hc)

theorem exists_strip (p : Char → Bool) (cs : List Char) :
    ∃ left right, cs = left ++ strip p cs ++ right ∧ (∀ c ∈ left, p c = true) ∧
      ∀ c ∈ right, p c = true := by
  obtain ⟨right, hcore, hright⟩ := exists_dropRightWhile p (cs.dropWhile p)
  refine ⟨cs.takeWhile p, right, ?_,
    fun c hc => List.all_eq_true.mp List.all_takeWhile c hc, hright⟩
  unfold strip
  rw [List.append_assoc, ← hcore, List.takeWhile_append_dropWhile]

/-- Nothing in front of a character that stays is dropped at the end of a text. -/
theorem dropRightWhile_append_cons {p : Char → Bool} {c : Char} (hc : p c = false)
    (before after : List Char) :
    dropRightWhile p (before ++ c :: after) = before ++ c :: dropRightWhile p after := by
  unfold dropRightWhile
  rw [List.reverse_append, List.reverse_cons, List.append_assoc, List.singleton_append,
    List.dropWhile_append]
  split
  next hempty =>
    rw [List.isEmpty_iff] at hempty
    rw [hempty, List.dropWhile_cons_of_neg (by simp [hc])]
    simp
  next => simp

theorem filter_dropWhile {p q : Char → Bool} (hpq : ∀ c, p c = true → q c = false)
    (cs : List Char) : (cs.dropWhile p).filter q = cs.filter q := by
  induction cs with
  | nil => rfl
  | cons c cs ih =>
    cases hc : p c with
    | true => rw [List.dropWhile_cons_of_pos hc, ih, List.filter_cons_of_neg (by simp [hpq c hc])]
    | false => rw [List.dropWhile_cons_of_neg (by simp [hc])]

/-- What is dropped at both ends has none of the characters looked for. -/
theorem filter_strip {p q : Char → Bool} (hpq : ∀ c, p c = true → q c = false)
    (cs : List Char) : (strip p cs).filter q = cs.filter q := by
  unfold strip dropRightWhile
  rw [List.filter_reverse, filter_dropWhile hpq, ← List.filter_reverse, List.reverse_reverse,
    filter_dropWhile hpq]

def trim (s : String) : String :=
  String.ofList (strip isBlank s.toList)

theorem mem_of_mem_trim {s : String} {c : Char} (h : c ∈ (trim s).toList) : c ∈ s.toList := by
  obtain ⟨left, right, hs, _⟩ := exists_strip isBlank s.toList
  unfold trim at h
  rw [String.toList_ofList] at h
  rw [hs]
  exact List.mem_append_left _ (List.mem_append_right _ h)

def isAllBlank (s : String) : Bool :=
  s.toList.all isBlank

/-- The maximal runs of characters that satisfy `keep`, in order. -/
def runs (keep : Char → Bool) : List Char → List (List Char)
  | [] => []
  | c :: cs =>
    if keep c then
      match cs.head?.any keep, runs keep cs with
      | true, w :: ws => (c :: w) :: ws
      | _, ws => [c] :: ws
    else runs keep cs

/-- The words of a text: its maximal runs of non-blank characters. -/
def words (s : String) : List String :=
  (runs (fun c => !isBlank c) s.toList).map String.ofList

end Synthesis.Text
