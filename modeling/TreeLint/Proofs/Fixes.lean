import TreeLint.Proofs.Builtin
import TreeLint.Proofs.Removal
import TreeLint.Proofs.Unit

/-!
# Fixing handlers that only rethrow

What the builtin analyzer does to a text when it fixes findings about handlers that only rethrow,
wherever these findings come from: if the fix is applied, the tree is pruned of the handlers to which
the findings lead, and nothing else is lost, doubled or moved.

## Main definitions

* `TreeLint.isLoose` — blanks and line ends, and the trivia directly in guarded blocks.
* `TreeLint.Rethrow.IsFixed` — a tree without the handlers to which some findings lead.

## Main results

* `TreeLint.Rethrow.isFixed_of_fixAll?` — a fix that is applied does just this.
-/

namespace TreeLint

/-- Blanks and line ends, and the trivia directly in guarded blocks. -/
def isLoose (parent : Kind) (t : Token) : Bool :=
  t.kind.isLayout || (parent = .tryStatement && t.kind.isTrivia)

namespace Rethrow

/-- The tree `tree` is the tree `root` without the handlers to which some findings lead. -/
structure IsFixed (root : Node) (ds : List Diagnostic) (tree : Node) : Prop where
  /-- Every finding leads to a handler. -/
  leads : ∀ d ∈ ds, ∃ c, d.range?.bind (handlerAround? root) = some c
  /-- None of these handlers has a filter. -/
  unfiltered : ∀ c ∈ chosen root ds, c.node.isFiltered = false
  /-- Trivia aside, these handlers are gone, and a guarded block of which only the body would be left
  is replaced by what stands between the braces of this body. -/
  pruned : tree.erase isAnyTrivia =
    (root.prune ((chosen root ds).map Cursor.target)).erase isAnyTrivia
  /-- The trivia that are gone as well are blanks and line ends, or stood directly in a guarded
  block. -/
  trivia : tree.erase isLoose = (root.prune ((chosen root ds).map Cursor.target)).erase isLoose
  /-- All tokens were there before, in this order. -/
  order : tree.leaves.Sublist root.leaves
  /-- Only guarded blocks with one of these handlers are not as they were. -/
  outside : ∃ g : Placed Element → List Element, tree = root.subst fun x =>
    if x.isAffected ((chosen root ds).map Cursor.target) then some (g x) else none
  /-- The comments of a body that takes the place of the whole are all there. -/
  comments : ∀ t b, root.Has t → t.kind = .tryStatement → IsPointless (· ∈ chosen root ds) t →
    t.node.child? .block = some b → b.commentTokens <:+: tree.commentTokens
  /-- A guarded block with neither a handler nor a clause that runs in any case was so before. -/
  bare : ∀ n ∈ tree.nodes, n.IsBare → ∃ (c : Cursor) (m : Node), root.Has c ∧ c.node.IsBare ∧
    c.node.toElement.prune ((chosen root ds).map Cursor.target) c.start = [m.toElement] ∧
    m.erase isLoose = n.erase isLoose

variable {a : Analyzer} {source : String} {ds : List Diagnostic} {tree : Node}
  {ranges : List Range}

/-- Blanks and line ends are trivia. -/
lemma isTrivia_of_isLayout {kind : Kind} (h : kind.isLayout = true) : kind.isTrivia = true := by
  revert h
  cases kind <;> decide

/-- **A fix that is applied** removes the handlers to which the findings lead, puts the body of a
guarded block of which nothing else is left in the place of the whole, and changes nothing else.

**Proof sketch.** The tree of a text is shaped, so the engine's answer is the tree after a plan for
these handlers (`isOutcome_of_fixAll?`), and of such a tree all of this has been shown. -/
theorem isFixed_of_fixAll? (ha : Analyzer.builtin = .ok a) (hds : ∀ d ∈ ds, d.ruleId = ruleId)
    (hfix : a.engine.fixAll? (parse source) ds = some (.applied tree ranges)) :
    IsFixed (parse source) ds tree := by
  have h := isShaped_parse source
  obtain ⟨hout, hleads, hunfiltered⟩ :=
    isOutcome_of_fixAll? h (Analyzer.provider?_builtin ha) hds hfix
  have hlayout : ∀ (k : Kind) (u : Token), u.kind.isLayout = true → isLoose k u = true := by
    intro k u hu
    simp [isLoose, hu]
  have htry : ∀ u : Token, u.kind.isTrivia = true → isLoose .tryStatement u = true := by
    intro u hu
    simp [isLoose, hu]
  exact {
    leads := hleads
    unfiltered := hunfiltered
    pruned := hout.erase_eq h (fun _ _ hu => isTrivia_of_isLayout hu) fun _ hu => hu
    trivia := hout.erase_eq h hlayout htry
    order := hout.sublist_leaves h
    outside := hout.exists_eq_subst h
    comments := fun t b ht hk hpoint hb => hout.infix_comments h ht hk hpoint hb
    bare := fun n hn hbare => hout.exists_bare h hlayout htry hn hbare }

/-- Both handlers of a guarded block are removed, and the comment in its body is kept. -/
theorem isFixed_two_handlers : ∃ a tree ranges, Analyzer.builtin = .ok a ∧
    a.engine.fixAll? (parse "try \x7b A(); // note\n\x7d catch (X) \x7b throw; \x7d catch \x7b throw; \x7d")
      [⟨"S2737", "", ⟨42, 16⟩, .minor⟩, ⟨"S2737", "", ⟨33, 6⟩, .major⟩] =
        some (.applied tree ranges) ∧
    IsFixed (parse "try \x7b A(); // note\n\x7d catch (X) \x7b throw; \x7d catch \x7b throw; \x7d")
      [⟨"S2737", "", ⟨42, 16⟩, .minor⟩, ⟨"S2737", "", ⟨33, 6⟩, .major⟩] tree ∧
    tree.text = "A(); // note" := by
  obtain ⟨a, ha⟩ := Analyzer.exists_builtin
  have htext : ((a.engine.fixAll?
      (parse "try \x7b A(); // note\n\x7d catch (X) \x7b throw; \x7d catch \x7b throw; \x7d")
      [⟨"S2737", "", ⟨42, 16⟩, .minor⟩, ⟨"S2737", "", ⟨33, 6⟩, .major⟩]).bind FixOutcome.tree?).map
        Node.text = some "A(); // note" := by
    rw [(Analyzer.builtin_spec ha).2.2]
    decide +kernel
  obtain ⟨tree, ranges, hfix, htree⟩ := exists_applied htext
  exact ⟨a, tree, ranges, ha, hfix, isFixed_of_fixAll? ha (by decide) hfix, htree⟩

end Rethrow

end TreeLint
