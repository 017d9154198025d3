import Mathlib.Data.List.TakeWhile
import TreeLint.Rule.Message

/-!
# Templates part by part

A template is rendered in one pass: what has been put in for a placeholder is never read again, and what
stands behind a placeholder is rendered as if it stood alone. So a template can be cut in two and rendered
part by part, wherever no brace that opens in the first part could be closed by one in the second. The
arguments play no part in this, whatever braces their texts hold.

## Main definitions

* `TreeLint.BracesClose` — behind every opening brace stands a closing one.
* `TreeLint.placeholder` — the placeholder of an index.
* `TreeLint.RendersInOnePass` — how templates are rendered with some arguments.

## Main results

* `TreeLint.renderChars_append` — templates are rendered part by part.
* `TreeLint.numeral?_toDigits` — a number is read from its digits.
* `TreeLint.rendersInOnePass` — templates of any length, with any arguments.
-/

namespace TreeLint

/-- Behind every opening brace of a template stands a closing one. -/
def BracesClose : List Char → Prop
  | [] => True
  | c :: cs => (c = '\x7b' → '\x7d' ∈ cs) ∧ BracesClose cs

instance decidableBracesClose : ∀ cs, Decidable (BracesClose cs)
  | [] => .isTrue trivial
  | _ :: cs => have := decidableBracesClose cs; inferInstanceAs (Decidable (_ ∧ _))

/-- The placeholder of an index. -/
def placeholder (i : Nat) : String := "\x7b" ++ toString i ++ "\x7d"

variable {args : List String} {body cs rest : List Char}

/-- Every brace that opens behind some characters is closed if all are. -/
lemma BracesClose.drop (h : BracesClose cs) (n : Nat) : BracesClose (cs.drop n) := by
  induction cs generalizing n with
  | nil => simpa using h
  | cons c cs ih =>
    cases n with
    | zero => exact h
    | succ n => exact ih h.2 n

/-! ## Placeholders -/

/-- A placeholder ends with the first closing brace. -/
lemma placeholder?_of_split (h : '\x7d' ∉ body) : placeholder? args (body ++ '\x7d' :: rest) =
    (readIndex? body).bind fun i => args[i]?.map (·, body.length + 1) := by
  have hbody : (body ++ '\x7d' :: rest).takeWhile (· ≠ '\x7d') = body := by
    rw [List.takeWhile_append_of_pos fun c hc => decide_eq_true (ne_of_mem_of_not_mem hc h)]
    simp
  rw [placeholder?, hbody, if_pos (by simp)]

/-- What stands behind the closing brace of a placeholder does not count. -/
lemma placeholder?_append (h : '\x7d' ∈ cs) : placeholder? args (cs ++ rest) = placeholder? args cs := by
  obtain ⟨body, behind, rfl, hbody⟩ := List.eq_append_cons_of_mem h
  rw [List.append_assoc, List.cons_append, placeholder?_of_split hbody, placeholder?_of_split hbody]

/-- A placeholder does not reach behind its closing brace. -/
lemma le_of_placeholder? (h : '\x7d' ∈ cs) {arg : String} {n : Nat}
    (hp : placeholder? args cs = some (arg, n)) : n ≤ cs.length := by
  obtain ⟨body, behind, rfl, hbody⟩ := List.eq_append_cons_of_mem h
  rw [placeholder?_of_split hbody, Option.bind_eq_some_iff] at hp
  obtain ⟨i, -, hp⟩ := hp
  obtain ⟨a, -, ha⟩ := Option.map_eq_some_iff.mp hp
  obtain ⟨-, rfl⟩ := Prod.mk.inj ha
  simp

/-! ## Templates -/

/-- **Templates are rendered part by part** if every brace that opens in the first part is closed there. -/
theorem renderChars_append (h : BracesClose cs) (rest : List Char) :
    renderChars args (cs ++ rest) = renderChars args cs ++ renderChars args rest := by
  fun_induction renderChars args cs with
  | case1 => rfl
  | case2 cs arg n hp ih =>
    have hclose := h.1 rfl
    have hdrop : (cs ++ rest).drop n = cs.drop n ++ rest :=
      List.drop_append_of_le_length (le_of_placeholder? hclose hp)
    rw [List.cons_append, renderChars, if_pos rfl, placeholder?_append hclose, hp]
    simp only [hdrop, ih (h.2.drop n), List.append_assoc]
  | case3 cs hp ih =>
    rw [List.cons_append, renderChars, if_pos rfl, placeholder?_append (h.1 rfl), hp]
    simp only [ih h.2, List.cons_append]
  | case4 c cs hc ih =>
    rw [List.cons_append, renderChars, if_neg hc, ih h.2, List.cons_append]

/-- A template without an opening brace is rendered as it is. -/
lemma renderChars_of_not_mem (h : '\x7b' ∉ cs) : renderChars args cs = cs := by
  induction cs with
  | nil => rw [renderChars]
  | cons c cs ih =>
    rw [List.mem_cons, not_or] at h
    rw [renderChars, if_neg fun hc => h.1 hc.symm, ih h.2]

/-- Braces around the number of an argument stand for the argument, and around anything else, in which no
brace stands, for themselves. -/
lemma renderChars_braced (hopen : '\x7b' ∉ body) (hclose : '\x7d' ∉ body) :
    renderChars args ('\x7b' :: (body ++ ['\x7d'])) =
      ((readIndex? body).bind fun i => args[i]?).elim ('\x7b' :: (body ++ ['\x7d'])) String.toList := by
  have hp : placeholder? args (body ++ ['\x7d']) =
      ((readIndex? body).bind fun i => args[i]?).map (·, body.length + 1) := by
    rw [placeholder?_of_split hclose, Option.map_bind]
    rfl
  have hplain : renderChars args (body ++ ['\x7d']) = body ++ ['\x7d'] :=
    renderChars_of_not_mem (by simpa using hopen)
  have hend : (body ++ ['\x7d']).drop (body.length + 1) = [] := by simp
  rw [renderChars, if_pos rfl, hp]
  cases (readIndex? body).bind fun i => args[i]? with
  | none => simp only [Option.map_none, hplain, Option.elim_none]
  | some arg => simp only [Option.map_some, hend, renderChars, List.append_nil, Option.elim_some]

/-! ## Numbers -/

/-- A numeral is read digit by digit, the value of the first ones going on into the others. -/
lemma numeral?_append (base value : Nat) (cs ds : List Char) : numeral? base value (cs ++ ds) =
    (numeral? base value cs).bind fun n => numeral? base n ds := by
  induction cs generalizing value with
  | nil => rfl
  | cons c cs ih =>
    rw [List.cons_append, numeral?, numeral?]
    cases digit? base c with
    | none => rfl
    | some d => exact ih _

/-- **A number is read from its digits.** -/
theorem numeral?_toDigits (n : Nat) : numeral? 10 0 (Nat.toDigits 10 n) = some n := by
  have hdigit : ∀ d < 10, digit? 10 (Nat.digitChar d) = some d := by decide
  induction n using Nat.strong_induction_on with
  | _ n ih =>
    rw [Nat.toDigits_eq_if (by decide)]
    split
    case isTrue h =>
      rw [numeral?, hdigit n h, Option.bind_some, numeral?, Nat.zero_mul, Nat.zero_add]
    case isFalse h =>
      have hlast := hdigit (n % 10) (Nat.mod_lt _ (by decide))
      rw [numeral?_append, ih (n / 10) (by omega), Option.bind_some, numeral?, hlast, Option.bind_some,
        numeral?, Nat.div_add_mod']

/-- An index is read from its digits if it fits into 64 bits. -/
lemma readIndex?_toDigits (i : Nat) :
    readIndex? (Nat.toDigits 10 i) = if i ≤ maxIndex then some i else none := by
  have hplus : (Nat.toDigits 10 i).head? ≠ some '+' := fun h =>
    absurd (Nat.isDigit_of_mem_toDigits (by decide) (by decide) (List.mem_of_head? h)) (by decide)
  rw [readIndex?, if_neg hplus, List.isEmpty_eq_false_iff.mpr Nat.toDigits_ne_nil, numeral?_toDigits]
  simp [Option.filter_some]

/-- A placeholder is a number in decimal digits between braces. -/
lemma toList_placeholder (i : Nat) : (placeholder i).toList = '\x7b' :: (Nat.toDigits 10 i ++ ['\x7d']) := by
  simp [placeholder, Nat.toString_eq_repr]

/-- The placeholder of an index stands for the argument with this index; without such an argument, or if
the index does not fit into 64 bits, it stands for itself. -/
lemma renderMessage_placeholder (args : List String) (i : Nat) : renderMessage (placeholder i) args =
    if i ≤ maxIndex then args[i]?.getD (placeholder i) else placeholder i := by
  have hnot : ∀ c : Char, c.isDigit = false → c ∉ Nat.toDigits 10 i := fun c hc hmem => by
    rw [Nat.isDigit_of_mem_toDigits (by decide) (by decide) hmem] at hc
    cases hc
  rw [renderMessage, toList_placeholder, renderChars_braced (hnot _ (by decide)) (hnot _ (by decide)),
    readIndex?_toDigits, ← toList_placeholder]
  by_cases hi : i ≤ maxIndex
  · rw [if_pos hi, if_pos hi, Option.bind_some]
    cases args[i]? <;> simp
  · rw [if_neg hi, if_neg hi, Option.bind_none, Option.elim_none, String.ofList_toList]

/-! ## One pass -/

/-- How templates are rendered with some arguments. -/
structure RendersInOnePass (args : List String) : Prop where
  /-- A template is rendered part by part if every brace that opens in the first part is followed by a
  closing one there. -/
  append : ∀ first second : String, BracesClose first.toList →
    renderMessage (first ++ second) args = renderMessage first args ++ renderMessage second args
  /-- A template without an opening brace is rendered as it is. -/
  plain : ∀ template : String, '\x7b' ∉ template.toList → renderMessage template args = template
  /-- The placeholder of an index, which is a number of 64 bits, stands for the argument with this index,
  whatever its text. -/
  argument : ∀ i ≤ maxIndex, ∀ h : i < args.length, renderMessage (placeholder i) args = args[i]
  /-- The placeholder of any other index stands for itself. -/
  missing : ∀ i, args.length ≤ i ∨ maxIndex < i → renderMessage (placeholder i) args = placeholder i

/-- **Templates are rendered in one pass**, whatever their length and whatever the texts of the arguments
hold.

**Proof sketch.** Rendering looks behind an opening brace up to the first closing one, and no further. If
there is one in the first part of a template, it does the same there as in the whole template
(`placeholder?_append`); the rest of the part is again one in which braces are closed, and so the parts can
be rendered one by one (`renderChars_append`). What is between the braces of a placeholder is read as the
number that was written (`numeral?_toDigits`). -/
theorem rendersInOnePass (args : List String) : RendersInOnePass args where
  append first second h := by
    rw [renderMessage, String.toList_append, renderChars_append h, String.ofList_append]
    rfl
  plain template h := by rw [renderMessage, renderChars_of_not_mem h, String.ofList_toList]
  argument i hi h := by
    rw [renderMessage_placeholder, if_pos hi, List.getElem?_eq_getElem h, Option.getD_some]
  missing i hi := by
    rw [renderMessage_placeholder]
    split
    case isTrue hle =>
      rw [List.getElem?_eq_none (by omega), Option.getD_none]
    case isFalse => rfl

/-- A brace that opens no placeholder in front of another one, an argument that looks like a placeholder, and
a second part that begins with a closing brace and asks for an argument that is not there. -/
theorem rendersInOnePass_nested : ∃ first second args, first = "\x7b \x7bx\x7d \x7b0\x7d" ∧
    second = "\x7d\x7b1\x7d\x7b7\x7d" ∧ args = ["\x7b1\x7d", "b"] ∧ BracesClose first.toList ∧
    renderMessage (first ++ second) args = renderMessage first args ++ renderMessage second args ∧
    renderMessage first args = "\x7b \x7bx\x7d \x7b1\x7d" ∧
    renderMessage second args = "\x7db\x7b7\x7d" := by
  have hclose : BracesClose "\x7b \x7bx\x7d \x7b0\x7d".toList := by decide
  exact ⟨_, _, _, rfl, rfl, rfl, hclose, (rendersInOnePass _).append _ _ hclose, by decide +kernel,
    by decide +kernel⟩

end TreeLint
