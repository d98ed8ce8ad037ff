import CandleScript.Proofs.Lexis.Extent
import CandleScript.Proofs.Script.Joining

namespace CandleScript

namespace Node

-- The trees right below a tree, in the order in which they are written.
def children : Node → List Node
  | assign _ value _ => [value]
  | binary _ left right _ => [left, right]
  | call _ args _ => args
  | name _ _ | number _ _ | text _ _ => []

-- Every tree takes up some room, and the trees below it lie inside of that, in
-- their order and without an overlap.
inductive Nested : Node → Prop where
  | intro {node : Node} (room : node.span.start < node.span.stop)
    (within : ∀ child ∈ node.children, child.span.Within node.span)
    (order : node.children.Pairwise fun a b => a.span.Ahead b.span)
    (below : ∀ child ∈ node.children, Nested child) : Nested node

variable {node : Node}

theorem Nested.room (h : node.Nested) : node.span.start < node.span.stop := by
  cases h with
  | intro room _ _ _ => exact room

theorem nested_leaf (hroom : node.span.start < node.span.stop) (h : node.children = []) :
    node.Nested := by
  apply Nested.intro hroom <;> rw [h]
  · exact List.forall_mem_nil _
  · exact .nil
  · exact List.forall_mem_nil _

end Node

-- A stretch from the start of one of the tokens to the end of one of them.
structure Span.Spans (span : Span) (tokens : List Token) : Prop where
  start : ∃ first ∈ tokens, span.start = first.span.start
  stop : ∃ last ∈ tokens, span.stop = last.span.stop

namespace Token

-- Tokens in the order in which they are written.
abbrev InOrder (tokens : List Token) : Prop := tokens.Pairwise fun a b => a.span.Ahead b.span

end Token

open Token (InOrder)

theorem sublist_brackets (opened closed : Token) (tokens : List Token) :
    tokens.Sublist (opened :: tokens ++ [closed]) :=
  (List.sublist_cons_self opened tokens).trans (List.sublist_append_left _ [closed])

namespace Span

variable {span a b : Span} {tokens before after : List Token}

theorem Spans.mono (h : span.Spans tokens) (hsubset : tokens ⊆ after) : span.Spans after := by
  obtain ⟨⟨first, hfirst, hstart⟩, last, hlast, hstop⟩ := h
  exact ⟨⟨first, hsubset hfirst, hstart⟩, last, hsubset hlast, hstop⟩

theorem spans_token {token : Token} (h : token ∈ tokens) : token.span.Spans tokens :=
  ⟨⟨token, h, rfl⟩, token, h, rfl⟩

-- What stands between earlier tokens is ahead of what stands between later ones.
theorem Spans.ahead (ha : a.Spans before) (hb : b.Spans after)
    (horder : InOrder (before ++ after)) : a.Ahead b := by
  obtain ⟨-, last, hlast, hstop⟩ := ha
  obtain ⟨⟨first, hfirst, hstart⟩, -⟩ := hb
  rw [Ahead, hstop, hstart]
  exact (List.pairwise_append.mp horder).2.2 last hlast first hfirst

-- Two stretches in their order are covered from the start of the first one to
-- the end of the second one.
theorem Ahead.cover_eq (h : a.Ahead b) (ha : a.start < a.stop) (hb : b.start < b.stop) :
    a.cover b = ⟨a.start, b.stop⟩ :=
  Span.cover_eq (le_trans ha.le h) (le_trans h hb.le)

theorem Spans.cover (ha : a.Spans tokens) (hb : b.Spans tokens) : (a.cover b).Spans tokens := by
  constructor
  · rw [Span.cover, Position.earlier]
    split
    · exact hb.start
    · exact ha.start
  · rw [Span.cover, Position.later]
    split
    · exact hb.stop
    · exact ha.stop

end Span

namespace Node

variable {left right : Node}

-- A tree that covers two stretches in their order has room for all between them.
theorem nested_cover {node : Node} {a b : Span} (hspan : node.span = a.cover b)
    (hahead : a.Ahead b) (ha : a.start < a.stop) (hb : b.start < b.stop)
    (hwithin : ∀ child ∈ node.children, a.start ≤ child.span.start ∧ child.span.stop ≤ b.stop)
    (horder : node.children.Pairwise fun a b => a.span.Ahead b.span)
    (hbelow : ∀ child ∈ node.children, child.Nested) : node.Nested := by
  rw [hahead.cover_eq ha hb] at hspan
  refine .intro ?_ ?_ horder hbelow
  · rw [hspan]
    exact lt_of_lt_of_le ha (le_trans hahead hb.le)
  · rw [hspan]
    exact hwithin

theorem nested_binary (hleft : left.Nested) (hright : right.Nested)
    (hahead : left.span.Ahead right.span) (op : Operator) :
    (binary op left right (left.span.cover right.span)).Nested := by
  refine nested_cover rfl hahead hleft.room hright.room ?_ (List.pairwise_pair.mpr hahead) ?_
  · rw [children, List.forall_mem_cons, List.forall_mem_singleton]
    exact ⟨⟨le_refl _, le_trans hahead hright.room.le⟩, le_trans hleft.room.le hahead, le_refl _⟩
  · rw [children, List.forall_mem_cons, List.forall_mem_singleton]
    exact ⟨hleft, hright⟩

-- Trees between tokens, in their order.
structure NestedRow (tokens : List Token) (nodes : List Node) : Prop where
  nested : ∀ node ∈ nodes, node.Nested
  spans : ∀ node ∈ nodes, node.span.Spans tokens
  order : nodes.Pairwise fun a b => a.span.Ahead b.span

theorem nestedRow_nil (tokens : List Token) : NestedRow tokens [] :=
  ⟨List.forall_mem_nil _, List.forall_mem_nil _, .nil⟩

theorem NestedRow.cons {before after : List Token} {node : Node} {nodes : List Node}
    (hnode : node.Nested ∧ node.span.Spans before) (h : NestedRow after nodes)
    (horder : InOrder (before ++ after)) : NestedRow (before ++ after) (node :: nodes) := by
  obtain ⟨hnested, hspans⟩ := hnode
  constructor
  · exact List.forall_mem_cons.mpr ⟨hnested, h.nested⟩
  · refine List.forall_mem_cons.mpr ⟨hspans.mono (List.subset_append_left _ _), ?_⟩
    exact fun other hother => (h.spans other hother).mono (List.subset_append_right _ _)
  · refine .cons (fun other hother => ?_) h.order
    exact hspans.ahead (h.spans other hother) horder

theorem NestedRow.mono {tokens after : List Token} {nodes : List Node}
    (h : NestedRow tokens nodes) (hsubset : tokens ⊆ after) : NestedRow after nodes :=
  ⟨h.nested, fun node hnode => (h.spans node hnode).mono hsubset, h.order⟩

-- Arguments in their order between the name of a call and its closing bracket.
theorem nested_call {name opened closed : Token} {tokens : List Token} {args : List Node}
    (horder : InOrder (name :: opened :: tokens ++ [closed]))
    (hargs : NestedRow tokens args) (callee : String) :
    let node := call callee args (name.span.cover closed.span)
    node.Nested ∧ node.span.Spans (name :: opened :: tokens ++ [closed]) := by
  have hname : name.span.Spans [name] := Span.spans_token (List.mem_singleton_self name)
  have hclosed : closed.span.Spans [closed] := Span.spans_token (List.mem_singleton_self closed)
  have hahead {span : Span} (h : span.Spans (opened :: tokens ++ [closed])) :
      name.span.Ahead span := hname.ahead h horder
  have hclosedAhead := hahead (hclosed.mono (List.subset_append_right _ _))
  constructor
  · refine nested_cover rfl hclosedAhead name.start_lt_stop closed.start_lt_stop ?_
      hargs.order hargs.nested
    intro arg harg
    have hspans : arg.span.Spans (opened :: tokens) :=
      (hargs.spans arg harg).mono (List.subset_cons_self opened tokens)
    have hafter := hahead (hspans.mono (List.subset_append_left _ _))
    have hbefore : arg.span.Ahead closed.span :=
      (hspans.mono (List.subset_cons_self name _)).ahead hclosed horder
    exact ⟨le_trans name.start_lt_stop.le hafter, le_trans hbefore closed.start_lt_stop.le⟩
  · exact (Span.spans_token (by simp)).cover (Span.spans_token (by simp))

theorem nested_assign {name : Token} {value : Node} (target : String)
    (hahead : name.span.Ahead value.span) (hvalue : value.Nested) :
    (assign target value (name.span.cover value.span)).Nested := by
  refine nested_cover rfl hahead name.start_lt_stop hvalue.room ?_ (List.pairwise_singleton _ _) ?_
  · rw [children, List.forall_mem_singleton]
    exact ⟨le_trans name.start_lt_stop.le hahead, le_refl _⟩
  · rw [children, List.forall_mem_singleton]
    exact hvalue

end Node

open Node (nested_leaf nested_binary nested_call nested_assign NestedRow)

mutual

theorem Forms.nested {tokens : List Token} {node : Node} :
    Forms tokens node → InOrder tokens → node.Nested ∧ node.span.Spans tokens
  | @Forms.name token _, _ | @Forms.number token _ _ _, _ | @Forms.text token _, _ =>
    ⟨nested_leaf token.start_lt_stop rfl, Span.spans_token (List.mem_singleton_self token)⟩
  | @Forms.group opened closed tokens _ _ _ h, horder => by
    have hsublist := sublist_brackets opened closed tokens
    obtain ⟨hnested, hspans⟩ := h.nested (horder.sublist hsublist)
    exact ⟨hnested, hspans.mono hsublist.subset⟩
  | @Forms.negated minus tokens _ _ h, horder => by
    obtain ⟨hnested, hspans⟩ := h.nested horder.of_cons
    have hminus : minus.span.Spans [minus] := Span.spans_token (List.mem_singleton_self minus)
    have hzero : (Node.number 0.0 minus.span).Nested := nested_leaf minus.start_lt_stop rfl
    refine ⟨nested_binary hzero hnested (hminus.ahead hspans horder) .sub, ?_⟩
    exact (Span.spans_token List.mem_cons_self).cover (hspans.mono (List.subset_cons_self _ _))
  | @Forms.binary sign before after _ _ _ _ hleft hright, horder => by
    obtain ⟨hbefore, hafter, -⟩ := List.pairwise_append.mp horder
    obtain ⟨hnestedLeft, hspansLeft⟩ := hleft.nested hbefore
    obtain ⟨hnestedRight, hspansRight⟩ := hright.nested hafter.of_cons
    have hbehind := hspansRight.mono (List.subset_cons_self sign after)
    refine ⟨nested_binary hnestedLeft hnestedRight (hspansLeft.ahead hbehind horder) _, ?_⟩
    exact (hspansLeft.mono (List.subset_append_left _ _)).cover
      (hbehind.mono (List.subset_append_right _ _))
  | @Forms.bareCall name opened closed _ _ _, horder =>
    @nested_call name opened closed [] [] horder (Node.nestedRow_nil []) name.literal
  | .call _ _ _ h, horder => by
    obtain ⟨hfront, -, -⟩ := List.pairwise_append.mp horder
    exact nested_call horder (h.nested hfront.of_cons.of_cons) _

theorem FormsAll.nested {tokens : List Token} {args : List Node} :
    FormsAll tokens args → InOrder tokens → NestedRow tokens args
  | .one h, horder => by
    have hrow := (Node.nestedRow_nil []).cons (h.nested horder)
    rw [List.append_nil] at hrow
    exact hrow horder
  | .more _ h hlater, horder => by
    obtain ⟨hbefore, hafter, -⟩ := List.pairwise_append.mp horder
    exact ((hlater.nested hafter.of_cons).mono (List.subset_cons_self _ _)).cons
      (h.nested hbefore) horder

end

theorem FormsStatement.nested {tokens : List Token} {node : Node} (h : FormsStatement tokens node)
    (horder : InOrder tokens) : node.Nested ∧ node.span.Spans tokens := by
  cases h with
  | bare h => exact h.nested horder
  | @assign name sign tokens value _ _ h =>
      obtain ⟨hnested, hspans⟩ := h.nested horder.of_cons.of_cons
      have hname : name.span.Spans [name] := Span.spans_token (List.mem_singleton_self name)
      have hbehind := hspans.mono (List.subset_cons_self sign tokens)
      refine ⟨nested_assign _ (hname.ahead hbehind horder) hnested, ?_⟩
      exact (Span.spans_token List.mem_cons_self).cover
        (hbehind.mono (List.subset_cons_self name _))

theorem FormsScript.nested {tokens : List Token} {script : Script} (h : FormsScript tokens script)
    (horder : InOrder tokens) : NestedRow tokens script := by
  induction h with
  | nil => exact Node.nestedRow_nil []
  | cons h _ ih =>
      obtain ⟨hbefore, hafter, -⟩ := List.pairwise_append.mp horder
      exact (ih hafter).cons (h.nested hbefore) horder

-- In a parsed script the trees right below a tree lie inside of it and in their
-- order, at every depth, and so do the statements follow one another.
theorem nested_of_parseSource {source : String} {script : Script}
    (h : parseSource source = .ok script) :
    (∀ node ∈ script, node.Nested) ∧ script.Pairwise fun a b => a.span.Ahead b.span := by
  obtain ⟨tokens, htokens, hparse⟩ := parse_of_parseSource h
  have horder : InOrder (Token.beforeEnd tokens) :=
    (ahead_of_tokenize htokens).sublist (List.takeWhile_sublist _)
  have hrow := (forms_of_parse hparse).nested horder
  exact ⟨hrow.nested, hrow.order⟩

-- The sign, the brackets and the line break all leave room between trees.
theorem nested_of_parseSource_sign :
    ∃ first second, parseSource "y = -(f(a,\n b)) x" = .ok [first, second] ∧
      first.Nested ∧ second.Nested ∧ first.span.Ahead second.span := by
  obtain ⟨first, second, hscript⟩ :
      ∃ first second, parseSource "y = -(f(a,\n b)) x" = .ok [first, second] := ⟨_, _, rfl⟩
  obtain ⟨hnested, horder⟩ := nested_of_parseSource hscript
  rw [List.forall_mem_cons, List.forall_mem_singleton] at hnested
  exact ⟨first, second, hscript, hnested.1, hnested.2,
    List.rel_of_pairwise_cons horder (List.mem_singleton_self second)⟩

end CandleScript
