import TreeLint.Proofs.Batch
import TreeLint.Proofs.Fronts

/-!
# Batches of edits and the text

A batch of edits is applied one edit after the other, from the last to the first, and each edit looks
its target up in the tree that the later ones have left. The text of the result is the text of the tree
with all removed ranges replaced at once. This needs less of an edit than the result as a tree: an edit
may remove all children of a node, and what is found for a target may be a node above it then.

## Main definitions

* `TreeLint.Edit.IsLocal` — an edit that removes whole consecutive children of a node.
* `TreeLint.rewriteAt`, `TreeLint.rewriteAll` — the bytes of a text with all edits made at once.

## Main results

* `TreeLint.Edit.IsLocal.apply_spec` — one edit, in a tree that agrees up to what the edit removes.
* `TreeLint.applySorted_spec` — edits in order, by induction from behind.
* `TreeLint.applyEdits_simultaneous` — batches of edits in any order.
-/

namespace TreeLint

/-! ## Texts and their bytes -/

/-- The bytes of a text. -/
def textBytes (s : String) : List UInt8 := s.toByteArray.data.toList

@[simp] lemma textBytes_append (s t : String) : textBytes (s ++ t) = textBytes s ++ textBytes t := by
  simp [textBytes]

@[simp] lemma length_textBytes (s : String) : (textBytes s).length = s.utf8ByteSize := by
  simp [textBytes]

namespace Element

/-- The text that consecutive elements spell. -/
def textList (es : List Element) : String := String.join ((leavesList es).map Token.text)

@[simp] lemma textList_nil : textList [] = "" := rfl

@[simp] lemma textList_cons (e : Element) (es : List Element) :
    textList (e :: es) = e.text ++ textList es := by simp [textList, text, String.join_append]

@[simp] lemma textList_append (es ds : List Element) :
    textList (es ++ ds) = textList es ++ textList ds := by simp [textList, String.join_append]

/-- The text of elements has as many bytes as they are long. -/
lemma utf8ByteSize_textList (es : List Element) : (textList es).utf8ByteSize = lengthList es := by
  rw [lengthList_eq, textList, utf8ByteSize_join, List.map_map]
  rfl

/-- Elements without a byte spell nothing. -/
lemma textList_eq_empty {es : List Element} (h : ∀ e ∈ es, e.length = 0) : textList es = "" := by
  rw [← String.utf8ByteSize_eq_zero_iff, utf8ByteSize_textList, lengthList_eq_zero h]

/-- Elements without a byte can be left out in front. -/
lemma textList_dropWhile_empty (es : List Element) :
    textList (es.dropWhile (·.length = 0)) = textList es := by
  have hempty : textList (es.takeWhile (·.length = 0)) = "" :=
    textList_eq_empty fun e he => by simpa using List.mem_takeWhile_imp he
  rw [← String.empty_append (s := textList (es.dropWhile _)), ← hempty, ← textList_append,
    List.takeWhile_append_dropWhile]

end Element

/-- The text of a node is that of its children. -/
lemma Node.text_eq (n : Node) : n.text = Element.textList n.children := rfl

/-- The text of a node has as many bytes as the node is long. -/
lemma Node.utf8ByteSize_text (n : Node) : n.text.utf8ByteSize = n.length :=
  Element.utf8ByteSize_textList n.children

namespace Cursor

/-- The text of a tree around a node, whatever node is put there. -/
lemma exists_text_rebuildAlong {start : Nat} {path : List Frame} (h : StartsFit start path) :
    ∃ front behind : String, front.utf8ByteSize = start ∧
      ∀ n, (rebuildAlong n path).text = front ++ n.text ++ behind := by
  induction path generalizing start with
  | nil =>
    obtain rfl : start = 0 := h
    exact ⟨"", "", rfl, fun n => by simp [rebuildAlong]⟩
  | cons f path ih =>
    obtain ⟨hstart, hfit⟩ := h
    obtain ⟨front, behind, hfront, htext⟩ := ih hfit
    refine ⟨front ++ Element.textList f.before.reverse, Element.textList f.after ++ behind, ?_,
      fun n => ?_⟩
    · rw [String.utf8ByteSize_append, Element.utf8ByteSize_textList, Element.lengthList_reverse, hfront,
        hstart]
    · have hplug : (f.plug n).text =
          Element.textList f.before.reverse ++ (n.text ++ Element.textList f.after) := by
        rw [Node.text_eq, Frame.plug, Element.textList_append, Element.textList_cons]
        rfl
      rw [rebuildAlong, htext, hplug]
      simp only [String.append_assoc]

end Cursor

/-! ## Edits of whole children -/

namespace Edit

/-- The text that an edit puts in the place of what it removes. -/
def insertedText (e : Edit) : String := Element.textList e.operation.elements

/-- The text that an edit inserts has as many bytes as the edit counts. -/
lemma utf8ByteSize_insertedText (e : Edit) : e.insertedText.utf8ByteSize = e.insertedLength :=
  Element.utf8ByteSize_textList _

/-- An edit is about a node below the root, and removes whole consecutive children of its parent, the
node among them. -/
def IsLocal (e : Edit) (root : Node) : Prop :=
  ∃ p c xs seg ys, root.Has p ∧ p.IsChild c ∧ e.target = c.target ∧
    p.node.children = xs ++ seg ++ ys ∧ e.removed.start = p.start + Element.lengthList xs ∧
    e.removed.stop = p.start + Element.lengthList (xs ++ seg) ∧ e.removed.contains c.range = true

namespace IsLocal

variable {e : Edit} {root tree : Node} {limit : Nat}

/-- What is removed is not empty, and lies in the tree. -/
lemma bounds (h : e.IsLocal root) (hs : root.All Element.IsSolid) :
    e.removed.start < e.removed.stop ∧ e.removed.stop ≤ root.length := by
  obtain ⟨p, c, xs, seg, ys, hp, hc, -, hcs, -, hstop, hcon⟩ := h
  have hsolid : 0 < c.node.length := (hs.children hp _ hc.mem_children).self
  have hcon := Range.contains_iff.mp hcon
  have hbounds := Cursor.Below.bounds hp
  have hlen : p.node.length = Element.lengthList (xs ++ seg) + Element.lengthList ys := by
    rw [Node.length, hcs, Element.lengthList_append]
  simp only [Cursor.range_start, Cursor.range_stop, Cursor.stop, Node.cursor] at hcon hbounds
  omega

/-- **The target in a tree that agrees** up to what the edit removes: a node is found for it, and what is
to be removed are consecutive children of the parent of this node, with nothing empty in front of them.

**Proof sketch.** The parent of the target and what is to be removed are still there, so the target is
found, or a node above it with the same kind and range. In the latter case the parent of the target has
no more room than the target, and what is to be removed is just the node found. -/
lemma exists_parent (h : e.IsLocal root) (hs : root.All Element.IsSolid)
    (honly : ∀ c, root.Has c → c.kind = root.kind → c = root.cursor) (hagree : root.AgreeTo limit tree)
    (hle : e.removed.stop ≤ limit) : ∃ x q xs seg ys, e.target.resolve? tree = some x ∧
      tree.Has q ∧ q.IsChild x ∧ q.node.children = xs ++ seg ++ ys ∧ (∀ d ∈ xs, d.IsSolid) ∧
      seg ≠ [] ∧ e.removed.start = q.start + Element.lengthList xs ∧
      e.removed.stop = q.start + Element.lengthList (xs ++ seg) := by
  obtain ⟨p, c, xs, seg, ys, hp, hc, htarget, hcs, hstart, hstop, hcon⟩ := h
  have hall := hs.children hp
  have hsolid : c.node.toElement.IsSolid := (hall _ hc.mem_children).self
  have hcon := Range.contains_iff.mp hcon
  simp only [Cursor.range_start, Cursor.range_stop] at hcon
  obtain ⟨hne, rest, hrest⟩ := hc.exists_front hcs hsolid (by omega) (by omega)
  -- the parent of the target and its children up to what is removed are still there
  obtain ⟨p', c', zs, hp', hchild, hp'start, hzs, hfront, hnode⟩ :=
    hagree.exists_child hs hp hc (hrest ▸ hcs) (by rw [← hrest]; omega)
  rw [← hrest] at hzs
  have hc' := hp'.child hchild
  have hrange : c'.range = c.range := by rw [Cursor.range, Cursor.range, hfront.start, hnode]
  have hbefore : ∀ f ∈ c'.path, ∀ d ∈ f.before, 0 < d.length := by
    intro f hf d hd
    obtain ⟨g, hg, -, -, hgf⟩ := (exists_of_forall₂ hfront.path).1 f hf
    exact (hs.before (hp.child hc) g hg d (hgf ▸ hd)).self
  obtain ⟨x, hx, hresolve, hxkind, hxrange⟩ := hc'.exists_resolve? (by rwa [hnode]) hbefore
  have htarget' : c'.target = e.target := by
    rw [htarget, Cursor.target, Cursor.target, hrange, hfront.kind]
  rw [htarget'] at hresolve
  rw [hchild.ancestors_eq, List.mem_cons] at hx
  rcases hx with rfl | hx
  · refine ⟨x, p', xs, seg, zs, hresolve, hp', hchild, hzs, fun d hd => (hall d ?_).self, hne, ?_, ?_⟩
    · rw [hcs]
      simp [hd]
    · rw [hp'start, hstart]
    · rw [hp'start, hstop]
  · -- what is found is not the root, which is the only node of its kind
    have hxp := Node.Has.below_of_mem_ancestors hp' hx
    have hxroot : tree.cursor ≠ x := by
      rintro rfl
      have hroot := honly c (hp.child hc) (by rw [← hfront.kind, ← hxkind, ← hagree.kind]; rfl)
      have hpath := hc.path_eq
      rw [hroot] at hpath
      cases hpath
    obtain ⟨q, hq, hqx⟩ := Cursor.Below.exists_parent
      (Node.Has.of_mem_ancestors hp' hx) hxroot
    have hqxstart := hqx.start_eq
    refine ⟨x, q, x.before.reverse, [x.node.toElement], x.after, hresolve, hq, hqx, ?_, ?_, by simp,
      ?_⟩
    · rw [hqx.children_eq]
      simp
    · intro d hd
      have hmem : (⟨q.kind, q.start, x.before, x.after⟩ : Frame) ∈ c'.path :=
        (Cursor.Below.path_suffix (hxp.tail hchild)).subset (by rw [hqx.path_eq]; exact List.mem_cons_self)
      exact hbefore _ hmem d (List.mem_reverse.mp hd)
    · -- the parent of the target has no room but for the target
      have hxb := Cursor.Below.bounds hxp
      have hcb := Cursor.Below.bounds (.tail .refl hchild)
      have hxs := congrArg Range.start (hxrange.trans hrange)
      have hxe := congrArg Range.stop (hxrange.trans hrange)
      have hce := congrArg Range.stop hrange
      have hlen : p'.node.length = Element.lengthList (xs ++ seg) + Element.lengthList zs := by
        rw [Node.length, hzs, Element.lengthList_append]
      have hcstop : c.stop = c.start + c.node.length := rfl
      have hcstart := hfront.start
      have hxlen : x.node.toElement.length = x.node.length := rfl
      simp only [Cursor.range_start, Cursor.range_stop, Cursor.stop] at hxb hcb hxs hxe hce
      simp only [Element.lengthList_append, Element.lengthList_reverse, Element.lengthList_cons,
        Element.lengthList_nil] at hstart hstop hlen ⊢
      omega

/-- **One edit, in a tree that agrees** up to what the edit removes: it succeeds, what it removes gives way
to what it inserts, and the tree agrees up to where that begins. -/
theorem apply_spec (h : e.IsLocal root) (hs : root.All Element.IsSolid)
    (honly : ∀ c, root.Has c → c.kind = root.kind → c = root.cursor) (hagree : root.AgreeTo limit tree)
    (hle : e.removed.stop ≤ limit) : ∃ tree', e.apply tree = .ok tree' ∧
      root.AgreeTo e.removed.start tree' ∧ textBytes tree'.text =
        (textBytes tree.text).take e.removed.start ++ textBytes e.insertedText ++
          (textBytes tree.text).drop e.removed.stop := by
  obtain ⟨x, q, xs, seg, ys, hresolve, hq, hx, hcs, hxs, hne, hstart, hstop⟩ :=
    h.exists_parent hs honly hagree hle
  obtain ⟨hpos, -⟩ := h.bounds hs
  let m : Node := ⟨q.kind, xs ++ e.operation.elements ++ ys.dropWhile (·.length = 0)⟩
  have happly : e.apply tree = .ok (Cursor.rebuildAlong m q.path) :=
    Edit.apply_eq_rebuildAlong hresolve hx.parent?_eq hcs hxs hne hstart hstop
  have hlen : q.node.length = Element.lengthList (xs ++ seg) + Element.lengthList ys := by
    rw [Node.length, hcs, Element.lengthList_append]
  refine ⟨_, happly, hagree.trans ?_ (by omega), ?_⟩
  · have hinside : Element.AgreeTo e.removed.start q.start q.node.children m.children := by
      simp only [hcs, m, List.append_assoc]
      exact .append xs (.behind (Nat.le_of_eq hstart))
    have hrebuild := Cursor.agreeTo_rebuildAlong (n := q.node) (m := m) hq.startsFit rfl (by omega) hinside
    rwa [hq.rebuildAlong_eq] at hrebuild
  · obtain ⟨front, behind, hfront, htext⟩ := Cursor.exists_text_rebuildAlong hq.startsFit
    have htree := htext q.node
    rw [hq.rebuildAlong_eq, q.node.text_eq, hcs, Element.textList_append, Element.textList_append] at htree
    have hbefore : (textBytes (front ++ Element.textList xs)).length = e.removed.start := by
      rw [length_textBytes, String.utf8ByteSize_append, Element.utf8ByteSize_textList, hfront, hstart]
    have hupto : (textBytes (front ++ Element.textList xs ++ Element.textList seg)).length =
        e.removed.stop := by
      rw [length_textBytes, String.utf8ByteSize_append, String.utf8ByteSize_append,
        Element.utf8ByteSize_textList, Element.utf8ByteSize_textList, hfront, hstop,
        Element.lengthList_append, Nat.add_assoc]
    have htake : (textBytes tree.text).take e.removed.start = textBytes (front ++ Element.textList xs) := by
      have hbytes : textBytes tree.text = textBytes (front ++ Element.textList xs) ++
          textBytes (Element.textList seg ++ Element.textList ys ++ behind) := by
        rw [htree]
        simp only [textBytes_append, List.append_assoc]
      rw [hbytes, List.take_left' hbefore]
    have hdrop : (textBytes tree.text).drop e.removed.stop = textBytes (Element.textList ys ++ behind) := by
      have hbytes : textBytes tree.text = textBytes (front ++ Element.textList xs ++ Element.textList seg) ++
          textBytes (Element.textList ys ++ behind) := by
        rw [htree]
        simp only [textBytes_append, List.append_assoc]
      rw [hbytes, List.drop_left' hupto]
    have hm : m.text = Element.textList xs ++ e.insertedText ++ Element.textList ys := by
      rw [Node.text_eq, Element.textList_append, Element.textList_append,
        Element.textList_dropWhile_empty, insertedText]
    rw [htake, hdrop, htext, hm]
    simp only [textBytes_append, List.append_assoc]

end IsLocal

end Edit

/-! ## All edits at once -/

/-- What comes in the place of one byte of a text when all edits are made at once: what the edits insert
that begin there, and the byte itself, unless an edit removes it. -/
def rewriteAt (edits : List Edit) (offset : Nat) (byte : UInt8) : List UInt8 :=
  (edits.filter (·.removed.start = offset)).flatMap (fun e => textBytes e.insertedText) ++
    if ∃ e ∈ edits, e.removed.start ≤ offset ∧ offset < e.removed.stop then [] else [byte]

/-- Bytes of a text from an offset on, all edits made at once. -/
def rewriteFrom (edits : List Edit) : Nat → List UInt8 → List UInt8
  | _, [] => []
  | offset, byte :: bytes => rewriteAt edits offset byte ++ rewriteFrom edits (offset + 1) bytes

/-- The bytes of a text with all removed ranges replaced at once. -/
def rewriteAll (edits : List Edit) (text : String) : List UInt8 := rewriteFrom edits 0 (textBytes text)

section Rewriting

variable {e : Edit} {es fs : List Edit} {offset : Nat} {byte : UInt8} {bytes : List UInt8}

/-- In front of all edits, a byte is kept. -/
lemma rewriteAt_of_lt (h : ∀ f ∈ es, offset < f.removed.start) : rewriteAt es offset byte = [byte] := by
  have hnone : es.filter (·.removed.start = offset) = [] :=
    List.filter_eq_nil_iff.mpr fun f hf => by simpa using Nat.ne_of_gt (h f hf)
  have hkept : ¬∃ f ∈ es, f.removed.start ≤ offset ∧ offset < f.removed.stop := by
    rintro ⟨f, hf, hle, -⟩
    exact Nat.not_lt.mpr hle (h f hf)
  rw [rewriteAt, hnone, if_neg hkept]
  rfl

/-- Behind what it removes, an edit has no effect. -/
lemma rewriteAt_cons_of_le (hpos : e.removed.start < e.removed.stop) (h : e.removed.stop ≤ offset) :
    rewriteAt (e :: es) offset byte = rewriteAt es offset byte := by
  have hne : e.removed.start ≠ offset := by omega
  have hout : ¬(e.removed.start ≤ offset ∧ offset < e.removed.stop) := by omega
  simp only [rewriteAt, List.filter_cons, hne, decide_false, Bool.false_eq_true, if_false,
    List.exists_mem_cons_iff, hout, false_or]

/-- What an edit removes gives way to what it inserts, all at the first byte. -/
lemma rewriteAt_cons_of_mem (h : ∀ f ∈ es, offset < f.removed.start)
    (hstart : e.removed.start ≤ offset) (hstop : offset < e.removed.stop) :
    rewriteAt (e :: es) offset byte =
      if e.removed.start = offset then textBytes e.insertedText else [] := by
  have hnone : es.filter (·.removed.start = offset) = [] :=
    List.filter_eq_nil_iff.mpr fun f hf => by simpa using Nat.ne_of_gt (h f hf)
  have hremoved : ∃ f ∈ e :: es, f.removed.start ≤ offset ∧ offset < f.removed.stop :=
    ⟨e, List.mem_cons_self, hstart, hstop⟩
  rw [rewriteAt, if_pos hremoved, List.filter_cons, hnone]
  split <;> simp_all

/-- Edits that begin at different offsets can be listed in any order. -/
lemma rewriteAt_perm (h : es.Perm fs) (hes : es.Pairwise fun e f => e.removed.start ≠ f.removed.start) :
    rewriteAt es offset byte = rewriteAt fs offset byte := by
  have hfilter : es.filter (·.removed.start = offset) = fs.filter (·.removed.start = offset) := by
    have hperm := h.filter (·.removed.start = offset)
    match hes' : es.filter (·.removed.start = offset) with
    | [] =>
      rw [hes'] at hperm ⊢
      exact (List.nil_perm.mp hperm).symm
    | [e] =>
      rw [hes'] at hperm ⊢
      exact List.singleton_perm.mp hperm
    | e :: f :: _ =>
      have hapart := hes.filter (·.removed.start = offset)
      rw [hes'] at hapart
      have he : e ∈ es.filter (·.removed.start = offset) := by simp [hes']
      have hf : f ∈ es.filter (·.removed.start = offset) := by simp [hes']
      have he : e.removed.start = offset := by simpa using (List.mem_filter.mp he).2
      have hf : f.removed.start = offset := by simpa using (List.mem_filter.mp hf).2
      exact absurd (he.trans hf.symm) ((List.pairwise_cons.mp hapart).1 f List.mem_cons_self)
  simp only [rewriteAt, hfilter, h.mem_iff]

/-- Edits that do the same at each of some bytes rewrite them in the same way. -/
lemma rewriteFrom_congr (h : ∀ i b, offset ≤ i → i < offset + bytes.length →
    rewriteAt es i b = rewriteAt fs i b) : rewriteFrom es offset bytes = rewriteFrom fs offset bytes := by
  induction bytes generalizing offset with
  | nil => rfl
  | cons b bytes ih =>
    rw [List.length_cons] at h
    rw [rewriteFrom, rewriteFrom, h offset b (Nat.le_refl _) (by omega),
      ih fun i b hi hlt => h i b (by omega) (by omega)]

/-- Bytes one after the other are rewritten one after the other. -/
lemma rewriteFrom_append (bytes bytes' : List UInt8) : rewriteFrom es offset (bytes ++ bytes') =
    rewriteFrom es offset bytes ++ rewriteFrom es (offset + bytes.length) bytes' := by
  induction bytes generalizing offset with
  | nil => rfl
  | cons b bytes ih =>
    rw [List.cons_append, rewriteFrom, ih, rewriteFrom, List.append_assoc, List.length_cons,
      Nat.add_assoc, Nat.add_comm 1]

/-- In front of all edits a text stays as it is. -/
lemma rewriteFrom_eq_self (h : ∀ f ∈ es, offset + bytes.length ≤ f.removed.start) :
    rewriteFrom es offset bytes = bytes := by
  induction bytes generalizing offset with
  | nil => rfl
  | cons b bytes ih =>
    rw [List.length_cons] at h
    rw [rewriteFrom, rewriteAt_of_lt fun f hf => by have := h f hf; omega,
      ih fun f hf => by have := h f hf; omega]
    rfl

/-- A text that begins in front of all edits keeps what stands there. -/
lemma le_length_rewriteAll {text : String} (h : ∀ f ∈ es, offset ≤ f.removed.start)
    (hle : offset ≤ (textBytes text).length) : offset ≤ (rewriteAll es text).length := by
  have hfront : ((textBytes text).take offset).length = offset := List.length_take_of_le hle
  rw [rewriteAll, ← List.take_append_drop offset (textBytes text), rewriteFrom_append,
    rewriteFrom_eq_self fun f hf => by rw [hfront, Nat.zero_add]; exact h f hf, List.length_append,
    hfront]
  exact Nat.le_add_right _ _

/-- What an edit removes gives way to what it inserts. -/
lemma rewriteFrom_removed (h : ∀ f ∈ es, e.removed.stop ≤ f.removed.start)
    (hstop : offset + bytes.length = e.removed.stop) (hstart : e.removed.start < offset) :
    rewriteFrom (e :: es) offset bytes = [] := by
  induction bytes generalizing offset with
  | nil => rfl
  | cons b bytes ih =>
    rw [List.length_cons] at hstop
    rw [rewriteFrom, rewriteAt_cons_of_mem (fun f hf => by have := h f hf; omega) (Nat.le_of_lt hstart)
      (by omega), if_neg (Nat.ne_of_lt hstart), ih (by omega) (by omega)]
    rfl

/-- **The first edit** changes what the others leave of a text just where it is. -/
theorem rewriteFrom_cons (hpos : e.removed.start < e.removed.stop) (hle : e.removed.stop ≤ bytes.length)
    (h : ∀ f ∈ es, e.removed.stop ≤ f.removed.start) : rewriteFrom (e :: es) 0 bytes =
      (rewriteFrom es 0 bytes).take e.removed.start ++ textBytes e.insertedText ++
        (rewriteFrom es 0 bytes).drop e.removed.stop := by
  obtain ⟨front, b, removed, behind, rfl, hfront, hremoved⟩ : ∃ front b removed behind,
      bytes = front ++ b :: removed ++ behind ∧ front.length = e.removed.start ∧
        (front ++ b :: removed).length = e.removed.stop := by
    have hupto : (bytes.take e.removed.stop).length = e.removed.stop := List.length_take_of_le hle
    have hsplit := List.take_append_drop e.removed.start (bytes.take e.removed.stop)
    obtain ⟨b, removed, heq⟩ : ∃ b removed, (bytes.take e.removed.stop).drop e.removed.start =
        b :: removed := List.exists_cons_of_length_pos (by rw [List.length_drop, hupto]; omega)
    rw [heq] at hsplit
    refine ⟨_, b, removed, bytes.drop e.removed.stop, ?_, ?_, hsplit ▸ hupto⟩
    · rw [hsplit, List.take_append_drop]
    · rw [List.length_take, hupto]
      omega
  have hothers : rewriteFrom es 0 (front ++ b :: removed ++ behind) =
      front ++ b :: removed ++ rewriteFrom es e.removed.stop behind := by
    rw [rewriteFrom_append, hremoved, Nat.zero_add,
      rewriteFrom_eq_self fun f hf => by rw [hremoved, Nat.zero_add]; exact h f hf]
  have hfirst : rewriteAt (e :: es) e.removed.start b = textBytes e.insertedText := by
    rw [rewriteAt_cons_of_mem (fun f hf => hpos.trans_le (h f hf)) (Nat.le_refl _) hpos, if_pos rfl]
  have hfront' : rewriteFrom (e :: es) 0 front = front := by
    refine rewriteFrom_eq_self fun f hf => ?_
    rcases List.mem_cons.mp hf with rfl | hf
    · omega
    · have := h f hf
      omega
  have hothers' : rewriteFrom (e :: es) e.removed.stop behind = rewriteFrom es e.removed.stop behind :=
    rewriteFrom_congr fun i b hi _ => rewriteAt_cons_of_le hpos hi
  have hremoved' : rewriteFrom (e :: es) (e.removed.start + 1) removed = [] := by
    rw [List.length_append, List.length_cons] at hremoved
    exact rewriteFrom_removed h (by omega) (by omega)
  have hall : rewriteFrom (e :: es) 0 (front ++ b :: removed ++ behind) =
      front ++ textBytes e.insertedText ++ rewriteFrom es e.removed.stop behind := by
    rw [rewriteFrom_append, rewriteFrom_append, hremoved, hfront', Nat.zero_add, Nat.zero_add, hfront,
      rewriteFrom, hfirst, hremoved', hothers', List.append_nil]
  rw [hall, hothers, List.drop_left' hremoved, List.append_assoc, List.append_assoc,
    List.append_assoc, List.take_left' hfront]

/-- Edits that begin at different offsets change a text alike in any order. -/
lemma rewriteAll_perm (h : es.Perm fs) (hes : es.Pairwise fun e f => e.removed.start ≠ f.removed.start)
    (text : String) : rewriteAll es text = rewriteAll fs text :=
  rewriteFrom_congr fun _ _ _ _ => rewriteAt_perm h hes

end Rewriting

/-! ## What is reported as inserted -/

/-- An edit that puts elements into a tree. -/
def Edit.Inserts (e : Edit) : Prop := e.operation.elements ≠ []

instance : DecidablePred Edit.Inserts := fun e => inferInstanceAs (Decidable (e.operation.elements ≠ []))

/-- The bytes of a text in a range. -/
def Range.slice (r : Range) (bytes : List UInt8) : List UInt8 := (bytes.drop r.start).take r.length

/-- Ranges of a text, one behind the other from an offset on, hold what edits insert: there is one for
each edit that inserts something. -/
structure HoldInserted (limit : Nat) (bytes : List UInt8) (es : List Edit) (ranges : List Range) :
    Prop where
  /-- No range begins in front of the offset. -/
  behind : ∀ r ∈ ranges, limit ≤ r.start
  /-- The ranges are in order and apart. -/
  ascending : ranges.Pairwise fun r s => r.stop ≤ s.start
  /-- Each range holds what an edit inserts. -/
  slices : List.Forall₂ (fun r e => r.slice bytes = textBytes e.insertedText) ranges
    (es.filter (·.Inserts))

namespace Edit

variable {e : Edit} {r : Range}

/-- A range behind an edit moves by the difference between what the edit inserts and what it removes. -/
lemma shift_bounds (e : Edit) (h : e.removed.stop ≤ r.start) :
    (e.shift r).start + e.removed.stop = r.start + e.removed.start + e.insertedLength ∧
      (e.shift r).stop + e.removed.stop = r.stop + e.removed.start + e.insertedLength := by
  have hr := r.start_le_stop
  have he := e.removed.start_le_stop
  unfold shift
  split
  · simp only [Range.length, Range.shiftRight] at *
    omega
  · simp only [Range.length, Range.shiftLeft] at *
    omega

/-- A range behind an edit holds the same bytes before the edit and after it. -/
lemma slice_shift {bytes : List UInt8} (h : e.removed.stop ≤ r.start)
    (hle : e.removed.stop ≤ bytes.length) : (e.shift r).slice (bytes.take e.removed.start ++
      textBytes e.insertedText ++ bytes.drop e.removed.stop) = r.slice bytes := by
  obtain ⟨hstart, hstop⟩ := e.shift_bounds h
  have hr := r.start_le_stop
  have he := e.removed.start_le_stop
  have hlen : (e.shift r).length = r.length := by
    rw [Range.length, Range.length]
    omega
  have hfront : (bytes.take e.removed.start ++ textBytes e.insertedText).length =
      e.removed.start + e.insertedLength := by
    rw [List.length_append, length_textBytes, utf8ByteSize_insertedText,
      List.length_take_of_le (by omega)]
  have hbehind : (e.shift r).start = e.removed.start + e.insertedLength + (r.start - e.removed.stop) := by
    omega
  rw [Range.slice, Range.slice, hlen, hbehind, ← hfront, List.drop_length_add_append, List.drop_drop,
    Nat.add_sub_cancel' h]

/-- What an edit inserts is found where the edit begins. -/
lemma slice_inserted {bytes : List UInt8} (hle : e.removed.start ≤ bytes.length) :
    (Range.ofLength e.removed.start e.insertedLength).slice (bytes.take e.removed.start ++
      textBytes e.insertedText ++ bytes.drop e.removed.stop) = textBytes e.insertedText := by
  have hfront : (bytes.take e.removed.start).length = e.removed.start := List.length_take_of_le hle
  have hlen : (textBytes e.insertedText).length = e.insertedLength := by
    rw [length_textBytes, utf8ByteSize_insertedText]
  rw [Range.slice, Range.length_ofLength, List.append_assoc]
  show ((_ : List UInt8).drop e.removed.start).take _ = _
  rw [List.drop_left' hfront, List.take_left' hlen]

end Edit

/-- **One more edit** in front of others: its range is the first, and the others move. -/
lemma HoldInserted.cons {limit : Nat} {bytes : List UInt8} {e : Edit} {es : List Edit}
    {ranges : List Range} (h : HoldInserted limit bytes es ranges) (hle : e.removed.stop ≤ limit)
    (hbytes : e.removed.stop ≤ bytes.length) : HoldInserted e.removed.start
      (bytes.take e.removed.start ++ textBytes e.insertedText ++ bytes.drop e.removed.stop) (e :: es)
      (e.insertedRange?.toList ++ ranges.map e.shift) := by
  have hpos := e.removed.start_le_stop
  have hmoved : ∀ r ∈ ranges, e.removed.start + e.insertedLength ≤ (e.shift r).start := by
    intro r hr
    have := h.behind r hr
    have := e.shift_bounds (r := r) (by omega)
    omega
  have hascending : (ranges.map e.shift).Pairwise fun r s => r.stop ≤ s.start := by
    rw [List.pairwise_map]
    refine h.ascending.imp_of_mem fun {r s} hr hs hrs => ?_
    have := e.shift_bounds (hle.trans (h.behind r hr))
    have := e.shift_bounds (hle.trans (h.behind s hs))
    omega
  have hslices : List.Forall₂ (fun r f => r.slice (bytes.take e.removed.start ++
      textBytes e.insertedText ++ bytes.drop e.removed.stop) = textBytes f.insertedText)
      (ranges.map e.shift) (es.filter (·.Inserts)) := by
    rw [List.forall₂_map_left_iff]
    refine ((List.forall₂_and_left _ _).mpr ⟨h.behind, h.slices⟩).imp ?_
    rintro r f ⟨hr, hslice⟩
    rw [Edit.slice_shift (hle.trans hr) hbytes, hslice]
  by_cases hins : e.Inserts
  · have hrange : e.insertedRange? = some (.ofLength e.removed.start e.insertedLength) :=
      if_neg (by simpa [Edit.Inserts] using hins)
    rw [hrange]
    refine ⟨fun r hr => ?_, ?_, ?_⟩
    · rcases List.mem_cons.mp hr with rfl | hr
      · exact Nat.le_refl _
      · obtain ⟨s, hs, rfl⟩ := List.mem_map.mp hr
        exact (Nat.le_add_right _ _).trans (hmoved s hs)
    · refine List.pairwise_cons.mpr ⟨fun r hr => ?_, hascending⟩
      obtain ⟨s, hs, rfl⟩ := List.mem_map.mp hr
      exact hmoved s hs
    · rw [List.filter_cons_of_pos (by simpa using hins)]
      exact .cons (Edit.slice_inserted (hpos.trans hbytes)) hslices
  · have hrange : e.insertedRange? = none := if_pos (by simpa [Edit.Inserts] using hins)
    rw [hrange]
    refine ⟨fun r hr => ?_, hascending, by rwa [List.filter_cons_of_neg (by simpa using hins)]⟩
    obtain ⟨s, hs, rfl⟩ := List.mem_map.mp hr
    exact (Nat.le_add_right _ _).trans (hmoved s hs)

/-! ## Batches -/

section Batches

variable {root : Node} {edits : List Edit}

/-- **Edits in order**, none of which overlap, change the text as if they were made at once, and the
ranges hold what they insert.

**Proof sketch.** Induction on the edits: the tree that the later edits leave agrees with the tree as it
was up to where they begin, so the first edit finds its place in it (`Edit.IsLocal.apply_spec`). -/
theorem applySorted_spec (hs : root.All Element.IsSolid)
    (honly : ∀ c, root.Has c → c.kind = root.kind → c = root.cursor)
    (hlocal : ∀ e ∈ edits, e.IsLocal root)
    (hsorted : edits.Pairwise fun e f => e.removed.stop ≤ f.removed.start) {limit : Nat}
    (hlimit : ∀ e ∈ edits, limit ≤ e.removed.start) : ∃ tree ranges,
      applySorted root edits = .ok (tree, ranges) ∧ root.AgreeTo limit tree ∧
        textBytes tree.text = rewriteAll edits root.text ∧
          HoldInserted limit (textBytes tree.text) edits ranges := by
  induction edits generalizing limit with
  | nil =>
    have hself : rewriteAll [] root.text = textBytes root.text := rewriteFrom_eq_self (by simp)
    exact ⟨root, [], rfl, .refl .., hself.symm, by simp, .nil, .nil⟩
  | cons e es ih =>
    obtain ⟨hfirst, hsorted⟩ := List.pairwise_cons.mp hsorted
    have he := hlocal e List.mem_cons_self
    obtain ⟨hpos, hlength⟩ := he.bounds hs
    rw [← Node.utf8ByteSize_text, ← length_textBytes] at hlength
    obtain ⟨tree, ranges, hlater, hagree, htext, hheld⟩ :=
      ih (fun f hf => hlocal f (List.mem_cons_of_mem _ hf)) hsorted hfirst
    obtain ⟨tree', happly, hagree', htext'⟩ := he.apply_spec hs honly hagree (Nat.le_refl _)
    have hlimit := hlimit e List.mem_cons_self
    have hbytes : e.removed.stop ≤ (textBytes tree.text).length := by
      rw [htext]
      exact le_length_rewriteAll hfirst hlength
    have hheld' := hheld.cons (Nat.le_refl _) hbytes
    rw [← htext'] at hheld'
    refine ⟨tree', _, ?_, ⟨hagree'.kind, hagree'.children.mono hlimit⟩, ?_,
      fun r hr => hlimit.trans (hheld'.behind r hr), hheld'.ascending, hheld'.slices⟩
    · simp only [applySorted, hlater, happly, bind, Except.bind, pure, Except.pure]
    · rw [htext', htext]
      exact (rewriteFrom_cons hpos hlength hfirst).symm

/-- **A batch of edits in any order**, each of which removes whole consecutive children of a node, in a
tree without empty elements whose root is the only node of its kind. It is refused exactly if two of the
edits overlap. Otherwise it leads to a tree whose text is the text of the tree with all removed ranges
replaced at once, and the ranges that it reports are those of what is inserted, in the order of the
text. -/
theorem applyEdits_simultaneous (hs : root.All Element.IsSolid)
    (honly : ∀ c, root.Has c → c.kind = root.kind → c = root.cursor)
    (hlocal : ∀ e ∈ edits, e.IsLocal root) :
    (applyEdits root edits = .error .conflictingEdits ↔
        ∃ e f, [e, f].Sublist edits ∧ e.overlaps f = true) ∧
      ((∀ e f, [e, f].Sublist edits → e.overlaps f = false) → ∃ tree ranges inserts,
        applyEdits root edits = .ok (tree, ranges) ∧
          textBytes tree.text = rewriteAll edits root.text ∧
          (ranges.Pairwise fun r s => r.stop ≤ s.start) ∧
          inserts.Perm (edits.filter (·.Inserts)) ∧
          List.Forall₂ (fun r e => r.slice (textBytes tree.text) = textBytes e.insertedText) ranges
            inserts) := by
  have hpos : ∀ e ∈ edits, e.removed.start < e.removed.stop := fun e he => ((hlocal e he).bounds hs).1
  have hover : neighboursOverlap (sortEdits edits) = false ↔
      ∀ e f, [e, f].Sublist edits → e.overlaps f = false := by
    rw [neighboursOverlap_sortEdits hpos, List.pairwise_iff_forall_sublist]
  have hok : neighboursOverlap (sortEdits edits) = false → ∃ tree ranges,
      applyEdits root edits = .ok (tree, ranges) ∧ textBytes tree.text = rewriteAll edits root.text ∧
        HoldInserted 0 (textBytes tree.text) (sortEdits edits) ranges := by
    intro h
    have hlocal' : ∀ e ∈ sortEdits edits, e.IsLocal root := fun e he => hlocal e (mem_sortEdits.mp he)
    have hsorted := (neighboursOverlap_eq_false_iff (pairwise_sortEdits edits)
      fun e he => ((hlocal' e he).bounds hs).1).mp h
    obtain ⟨tree, ranges, happly, -, htext, hheld⟩ :=
      applySorted_spec hs honly hlocal' hsorted fun e _ => Nat.zero_le _
    refine ⟨tree, ranges, by rw [applyEdits, h]; exact happly, ?_, hheld⟩
    rw [htext]
    refine rewriteAll_perm (sortEdits_perm edits) (hsorted.imp_of_mem fun he _ hef => ?_) _
    have := ((hlocal' _ he).bounds hs).1
    omega
  constructor
  · cases h : neighboursOverlap (sortEdits edits) with
    | true =>
      have hnone : ¬∀ e f, [e, f].Sublist edits → e.overlaps f = false := by
        rw [← hover, h]
        exact Bool.noConfusion
      push Not at hnone
      exact iff_of_true (by simp [applyEdits, h]) (by simpa using hnone)
    | false =>
      obtain ⟨tree, ranges, happly, -⟩ := hok h
      refine iff_of_false (by simp [happly]) ?_
      rintro ⟨e, f, hef, he⟩
      rw [hover.mp h e f hef] at he
      cases he
  · intro h
    obtain ⟨tree, ranges, happly, htext, hheld⟩ := hok (hover.mpr h)
    exact ⟨tree, ranges, _, happly, htext, hheld.ascending,
      (sortEdits_perm edits).filter _, hheld.slices⟩

/-- A block of two types, of which the second is removed and the first replaced. -/
theorem applyEdits_simultaneous_types : ∃ root : Node, ∃ edits,
    root = ⟨.compilationUnit, [.node .block [.node .typeRef [.token ⟨.ident, "ab"⟩],
      .node .typeRef [.token ⟨.ident, "cd"⟩]]]⟩ ∧
    edits = [Edit.removal ⟨.typeRef, .ofLength 2 2⟩ (.ofLength 2 2),
      Edit.replacement ⟨.typeRef, .ofLength 0 2⟩ [.node .typeRef [.token ⟨.ident, "xyz"⟩]]] ∧
    root.All Element.IsSolid ∧ (∀ c, root.Has c → c.kind = root.kind → c = root.cursor) ∧
    (∀ e ∈ edits, e.IsLocal root) ∧ (∀ e f, [e, f].Sublist edits → e.overlaps f = false) ∧
    ∃ tree ranges inserts, applyEdits root edits = .ok (tree, ranges) ∧
      textBytes tree.text = textBytes "xyz" ∧ inserts.Perm (edits.filter (·.Inserts)) ∧
      List.Forall₂ (fun r e => r.slice (textBytes tree.text) = textBytes e.insertedText) ranges
        inserts := by
  obtain ⟨root, hroot⟩ : ∃ root : Node, root = ⟨.compilationUnit, [.node .block
    [.node .typeRef [.token ⟨.ident, "ab"⟩], .node .typeRef [.token ⟨.ident, "cd"⟩]]]⟩ := ⟨_, rfl⟩
  obtain ⟨edits, hedits⟩ : ∃ edits, edits = [Edit.removal ⟨.typeRef, .ofLength 2 2⟩ (.ofLength 2 2),
    Edit.replacement ⟨.typeRef, .ofLength 0 2⟩ [.node .typeRef [.token ⟨.ident, "xyz"⟩]]] := ⟨_, rfl⟩
  have htype : ∀ s : String, 0 < s.utf8ByteSize →
      (Element.node .typeRef [.token ⟨.ident, s⟩]).All Element.IsSolid :=
    fun s hs => .node hs fun e he => List.mem_singleton.mp he ▸ .token hs
  have hs : root.All Element.IsSolid := by
    rw [hroot, Node.All, List.forall_mem_singleton]
    refine .node (by simp only [Element.IsSolid]; decide) ?_
    rw [List.forall_mem_cons, List.forall_mem_singleton]
    exact ⟨htype "ab" (by decide), htype "cd" (by decide)⟩
  have honly : ∀ c, root.Has c → c.kind = root.kind → c = root.cursor := by
    have hall : ∀ c ∈ root.cursor.cursors, c.kind = root.kind → c = root.cursor := by
      rw [hroot]
      decide
    exact fun c hc => hall c (Cursor.mem_cursors.mpr hc)
  have hblock : root.cursor.IsChild ⟨⟨.block, [.node .typeRef [.token ⟨.ident, "ab"⟩],
      .node .typeRef [.token ⟨.ident, "cd"⟩]]⟩, 0, [⟨.compilationUnit, 0, [], []⟩]⟩ := by
    rw [hroot]
    exact @Cursor.IsChild.mk _ [] [] _ _ rfl
  have hlocal : ∀ e ∈ edits, e.IsLocal root := by
    rw [hedits, List.forall_mem_cons, List.forall_mem_singleton]
    constructor
    · exact ⟨_, _, [.node .typeRef [.token ⟨.ident, "ab"⟩]], [.node .typeRef [.token ⟨.ident, "cd"⟩]], [],
        root.has_cursor.child hblock, @Cursor.IsChild.mk _ [_] [] _ _ rfl, rfl, rfl, rfl, rfl, rfl⟩
    · exact ⟨_, _, [], [.node .typeRef [.token ⟨.ident, "ab"⟩]], [.node .typeRef [.token ⟨.ident, "cd"⟩]],
        root.has_cursor.child hblock, @Cursor.IsChild.mk _ [] [_] _ _ rfl, rfl, rfl, rfl, rfl, rfl⟩
  have hapart : ∀ e f, [e, f].Sublist edits → e.overlaps f = false := by
    have hpairwise : edits.Pairwise fun e f => e.overlaps f = false := by
      rw [hedits]
      decide
    exact fun e f => List.pairwise_iff_forall_sublist.mp hpairwise
  obtain ⟨tree, ranges, inserts, happly, htext, -, hperm, hslices⟩ :=
    (applyEdits_simultaneous hs honly hlocal).2 hapart
  refine ⟨root, edits, hroot, hedits, hs, honly, hlocal, hapart, tree, ranges, inserts, happly, ?_, hperm,
    hslices⟩
  rw [htext, hroot, hedits]
  decide

end Batches

end TreeLint
