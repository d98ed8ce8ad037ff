import CandleScript.Proofs.Analysis.Violations
import CandleScript.Proofs.Script.Placement

namespace CandleScript

namespace Diagnostic

-- The name in a message: what stands between its first two apostrophes.
def quoted (message : String) : String :=
  .ofList (((message.toList.dropWhile (· ≠ '\'')).drop 1).takeWhile (· ≠ '\''))

theorem quoted_eq {opened name closed : String} (before after : List Char)
    (hopened : opened.toList = before ++ ['\''])
    (hclosed : closed.toList = '\'' :: after) (hbefore : '\'' ∉ before)
    (hname : '\'' ∉ name.toList) : quoted (opened ++ name ++ closed) = name := by
  have hfront : ∀ c ∈ before, decide (c ≠ '\'') = true := by
    intro c hc
    exact decide_eq_true fun heq => hbefore (heq ▸ hc)
  have hinside : ∀ c ∈ name.toList, decide (c ≠ '\'') = true := by
    intro c hc
    exact decide_eq_true fun heq => hname (heq ▸ hc)
  have hmessage : (opened ++ name ++ closed).toList =
      before ++ '\'' :: (name.toList ++ '\'' :: after) := by
    rw [String.toList_append, String.toList_append, hopened, hclosed]
    simp
  rw [quoted, hmessage, List.dropWhile_append_of_pos hfront, List.dropWhile_cons_of_neg (by simp),
    List.drop_one, List.tail_cons, List.takeWhile_append_of_pos hinside,
    List.takeWhile_cons_of_neg (by simp), List.append_nil, String.ofList_toList]

section

variable {name : String} (hname : '\'' ∉ name.toList)

include hname

theorem quoted_forbidden (category : Forbidden) (span : Span) :
    quoted (Analysis.forbidden category name span).message = name := by
  cases category <;> exact quoted_eq [] _ rfl rfl List.not_mem_nil hname

theorem quoted_reservedTarget (span : Span) :
    quoted (Analysis.reservedTarget name span).message = name :=
  quoted_eq "cannot assign to built-in series ".toList [] rfl rfl (by decide) hname

theorem quoted_unknownFunction (span : Span) :
    quoted (Analysis.unknownFunction name span).message = name :=
  quoted_eq "unknown function ".toList [] rfl rfl (by decide) hname

theorem quoted_undefined (scope : Analysis.Scope) (span : Span) :
    quoted (Analysis.undefined scope name span).message = name :=
  quoted_eq [] " is not defined before this point".toList rfl rfl List.not_mem_nil hname

theorem quoted_assigned : quoted s!"'{name}' is assigned here" = name :=
  quoted_eq [] " is assigned here".toList rfl rfl List.not_mem_nil hname

end

end Diagnostic

open Token (InOrder)

-- The place of a mention is that of a token, whose literal is the name, as long
-- as names are as wide as they are long.
def Mention.IsToken (m : Mention) (tokens : List Token) : Prop :=
  ∃ token ∈ tokens, token.kind.isName = true ∧ m.name = token.literal ∧
    (token.width = token.literal.length → m.place = token.span)

section

variable {tokens after : List Token}

theorem isToken_of_sublist {mentioned : List Mention} (h : ∀ m ∈ mentioned, m.IsToken tokens)
    (hsublist : tokens.Sublist after) : ∀ m ∈ mentioned, m.IsToken after := by
  intro m hm
  obtain ⟨token, htoken, hkind⟩ := h m hm
  exact ⟨token, hsublist.subset htoken, hkind⟩

-- A target or a callee is found again at the start of what covers it.
theorem nameSpan_cover {name : Token} {span : Span} (h : name.span.Ahead span)
    (hwidth : name.width = name.literal.length) :
    Analysis.nameSpan (name.span.cover span) name.literal = name.span := by
  have hstart : name.span.start ≤ span.start := le_trans name.start_lt_stop.le h
  rw [Analysis.nameSpan, Span.cover, Position.earlier_eq hstart, ← hwidth]
  rfl

theorem isToken_callee {name closed : Token} (hname : name.kind.isName = true)
    (hclosed : closed ∈ tokens) (horder : InOrder (name :: tokens)) (count : Nat) :
    (Mention.callee name.literal count (name.span.cover closed.span)).IsToken (name :: tokens) :=
  ⟨name, List.mem_cons_self, hname, rfl,
    nameSpan_cover (List.rel_of_pairwise_cons horder hclosed)⟩

end

mutual

theorem Forms.mentions {tokens : List Token} {node : Node} :
    Forms tokens node → InOrder tokens → ∀ m ∈ node.mentions, m.IsToken tokens
  | @Forms.name token hname, _ =>
    List.forall_mem_singleton.mpr ⟨token, List.mem_singleton_self token, hname, rfl, fun _ => rfl⟩
  | .number _ _, _ | .text _, _ => List.forall_mem_nil _
  | @Forms.group opened closed tokens _ _ _ h, horder => by
    have hsublist := sublist_brackets opened closed tokens
    exact isToken_of_sublist (h.mentions (horder.sublist hsublist)) hsublist
  | .negated _ h, horder =>
    isToken_of_sublist (h.mentions horder.of_cons) (List.sublist_cons_self _ _)
  | .binary _ hleft hright, horder => by
    obtain ⟨hbefore, hafter, -⟩ := List.pairwise_append.mp horder
    exact List.forall_mem_append.mpr
      ⟨isToken_of_sublist (hleft.mentions hbefore) (List.sublist_append_left _ _),
        isToken_of_sublist (hright.mentions hafter.of_cons)
          ((List.sublist_cons_self _ _).trans (List.sublist_append_right _ _))⟩
  | .bareCall hname _ _, horder =>
    List.forall_mem_singleton.mpr (isToken_callee hname (by simp) horder 0)
  | @Forms.call name opened closed tokens _ hname _ _ h, horder => by
    have hsublist := (sublist_brackets opened closed tokens).cons name
    exact List.forall_mem_cons.mpr ⟨isToken_callee hname (by simp) horder _,
      isToken_of_sublist (h.mentions (horder.sublist hsublist)) hsublist⟩

theorem FormsAll.mentions {tokens : List Token} {args : List Node} :
    FormsAll tokens args → InOrder tokens → ∀ m ∈ Node.mentionsAll args, m.IsToken tokens
  | .one h, horder => by
    rw [Node.mentionsAll, Node.mentionsAll, List.append_nil]
    exact h.mentions horder
  | .more _ h hlater, horder => by
    obtain ⟨hbefore, hafter, -⟩ := List.pairwise_append.mp horder
    exact List.forall_mem_append.mpr
      ⟨isToken_of_sublist (h.mentions hbefore) (List.sublist_append_left _ _),
        isToken_of_sublist (hlater.mentions hafter.of_cons)
          ((List.sublist_cons_self _ _).trans (List.sublist_append_right _ _))⟩

end

theorem FormsStatement.mentions {tokens : List Token} {node : Node}
    (h : FormsStatement tokens node) (horder : InOrder tokens) :
    ∀ m ∈ node.mentions, m.IsToken tokens := by
  cases h with
  | bare h => exact h.mentions horder
  | @assign name sign tokens value hname _ h =>
      have hafter : InOrder (sign :: tokens) := horder.of_cons
      obtain ⟨-, hspans⟩ := h.nested hafter.of_cons
      obtain ⟨⟨first, hfirst, hstart⟩, -⟩ := hspans
      have hahead : name.span.Ahead value.span := by
        rw [Span.Ahead, hstart]
        exact List.rel_of_pairwise_cons horder (List.mem_cons_of_mem sign hfirst)
      have hsublist := (List.sublist_cons_self sign tokens).trans (List.sublist_cons_self name _)
      exact List.forall_mem_append.mpr
        ⟨isToken_of_sublist (h.mentions hafter.of_cons) hsublist,
          List.forall_mem_singleton.mpr
            ⟨name, List.mem_cons_self, hname, rfl, nameSpan_cover hahead⟩⟩

-- Every name that a script uses is one of its tokens.
theorem FormsScript.mentions {tokens : List Token} {script : Script} (h : FormsScript tokens script)
    (horder : InOrder tokens) : ∀ m ∈ Node.mentionsAll script, m.IsToken tokens := by
  induction h with
  | nil => exact List.forall_mem_nil _
  | cons h _ ih =>
      obtain ⟨hbefore, hafter, -⟩ := List.pairwise_append.mp horder
      exact List.forall_mem_append.mpr
        ⟨isToken_of_sublist (h.mentions hbefore) (List.sublist_append_left _ _),
          isToken_of_sublist (ih hafter) (List.sublist_append_right _ _)⟩

-- What stands in the source at the place of a mention is the name, which has no
-- apostrophe in it.
theorem shown_of_parseSource {source : String} {script : Script}
    (h : parseSource source = .ok script) :
    ∀ m ∈ Node.mentionsAll script, m.place.chars source = m.name ∧ '\'' ∉ m.name.toList := by
  obtain ⟨tokens, htokens, hparse⟩ := parse_of_parseSource h
  have hsublist : (Token.beforeEnd tokens).Sublist tokens := List.takeWhile_sublist _
  have horder : InOrder (Token.beforeEnd tokens) := (ahead_of_tokenize htokens).sublist hsublist
  intro m hm
  obtain ⟨token, htoken, hkind, hname, hplace⟩ := (forms_of_parse hparse).mentions horder m hm
  have hstands := stands_of_tokenize htokens token (hsublist.subset htoken) hkind
  rw [hname, hplace hstands.width]
  exact ⟨hstands.chars, hstands.isName.2.notMem (by decide) (by decide)⟩

namespace Analysis

variable {mentioned : List Mention}

-- The names in scope are targets of the script at their places.
def Recorded (mentioned : List Mention) (scope : Scope) : Prop :=
  ∀ name place, scope.get? name = some place → .target name place ∈ mentioned

theorem Recorded.setIfNew {scope : Scope} (h : Recorded mentioned scope) {name : String}
    {place : Span} (htarget : .target name place ∈ mentioned) :
    Recorded mentioned (scope.setIfNew name place) := by
  unfold Bindings.setIfNew
  split
  · exact h
  · intro other found hfound
    rw [Bindings.get?_set] at hfound
    split at hfound
    · rename_i hname
      cases hfound
      exact hname ▸ htarget
    · exact h other found hfound

-- The findings that are no errors.
inductive Warning (mentioned : List Mention) : Diagnostic → Prop where
  | undefined {scope : Scope} {name : String} {place : Span}
    (hread : .read name place ∈ mentioned) (hscope : Recorded mentioned scope) :
    Warning mentioned (undefined scope name place)
  | discarded (span : Span) : Warning mentioned (discarded span)

-- What is found in a part of the script, and the scope behind it.
structure Walked (mentioned : List Mention) (result : Diagnostics × Scope) : Prop where
  found : ∀ d ∈ result.1, d.isError = true ∨ Warning mentioned d
  scope : Recorded mentioned result.2

theorem Walked.prepend {found : Diagnostics} {result : Diagnostics × Scope}
    (h : Walked mentioned result) (hfound : ∀ d ∈ found, d.isError = true ∨ Warning mentioned d) :
    Walked mentioned (found ++ result.1, result.2) :=
  ⟨List.forall_mem_append.mpr ⟨hfound, h.found⟩, h.scope⟩

theorem isError_checkCallee (callee : String) (count : Nat) (span : Span) :
    ∀ d ∈ checkCallee callee count span, d.isError = true := by
  unfold checkCallee
  dsimp only
  split
  · exact List.forall_mem_singleton.mpr rfl
  · split
    · exact List.forall_mem_singleton.mpr rfl
    · split
      · exact List.forall_mem_nil _
      · exact List.forall_mem_singleton.mpr rfl

theorem walked_checkName {scope : Scope} (h : Recorded mentioned scope) {name : String}
    {span : Span} (hread : .read name span ∈ mentioned) :
    Walked mentioned (checkName scope name span, scope) := by
  refine ⟨?_, h⟩
  dsimp only
  unfold checkName
  split
  · exact List.forall_mem_singleton.mpr (.inl rfl)
  · split
    · exact List.forall_mem_nil _
    · exact List.forall_mem_singleton.mpr (.inr (.undefined hread h))

theorem walked_checkTarget {scope : Scope} (h : Recorded mentioned scope) {name : String}
    {span : Span} (htarget : .target name (nameSpan span name) ∈ mentioned) :
    Walked mentioned (checkTarget scope name span) := by
  unfold checkTarget
  dsimp only
  split
  · exact ⟨List.forall_mem_singleton.mpr (.inl rfl), h⟩
  · split
    · exact ⟨List.forall_mem_singleton.mpr (.inl rfl), h⟩
    · exact ⟨List.forall_mem_nil _, h.setIfNew htarget⟩

mutual

-- Induction on the tree: what is recorded before it stays recorded.
theorem walked_visit : ∀ (node : Node) (scope : Scope), node.mentions ⊆ mentioned →
    Recorded mentioned scope → Walked mentioned (visit scope node)
  | .assign target value span => by
    intro scope hmentions h
    rw [Node.mentions, List.append_subset] at hmentions
    have hvalue := walked_visit value scope hmentions.1 h
    simp only [visit]
    exact (walked_checkTarget hvalue.scope (hmentions.2 (List.mem_singleton_self _))).prepend
      hvalue.found
  | .binary _ left right _ => by
    intro scope hmentions h
    rw [Node.mentions, List.append_subset] at hmentions
    have hleft := walked_visit left scope hmentions.1 h
    simp only [visit]
    exact (walked_visit right _ hmentions.2 hleft.scope).prepend hleft.found
  | .call callee args span => by
    intro scope hmentions h
    rw [Node.mentions, List.cons_subset] at hmentions
    simp only [visit]
    exact (walked_visitAll args scope hmentions.2 h).prepend
      fun d hd => .inl (isError_checkCallee callee args.length span d hd)
  | .name read span => by
    intro scope hmentions h
    rw [Node.mentions] at hmentions
    exact walked_checkName h (hmentions (List.mem_singleton_self _))
  | .number _ _ | .text _ _ => by
    intro scope _ h
    exact ⟨List.forall_mem_nil _, h⟩

theorem walked_visitAll : ∀ (nodes : List Node) (scope : Scope),
    Node.mentionsAll nodes ⊆ mentioned → Recorded mentioned scope →
    Walked mentioned (visitAll scope nodes)
  | [] => by
    intro scope _ h
    exact ⟨List.forall_mem_nil _, h⟩
  | node :: rest => by
    intro scope hmentions h
    rw [Node.mentionsAll, List.append_subset] at hmentions
    have hnode := walked_visit node scope hmentions.1 h
    simp only [visitAll]
    exact (walked_visitAll rest _ hmentions.2 hnode.scope).prepend hnode.found

end

theorem found_visitStatements (script : List Node) {scope : Scope}
    (hmentions : Node.mentionsAll script ⊆ mentioned) (h : Recorded mentioned scope) :
    ∀ d ∈ visitStatements scope script, d.isError = true ∨ Warning mentioned d := by
  induction script generalizing scope with
  | nil => exact List.forall_mem_nil _
  | cons node rest ih =>
      rw [Node.mentionsAll, List.append_subset] at hmentions
      have hnode := walked_visit node scope hmentions.1 h
      have hdiscarded : ∀ d ∈ if discards node then [discarded node.span] else [],
          d.isError = true ∨ Warning mentioned d := by
        split
        · exact List.forall_mem_singleton.mpr (.inr (.discarded _))
        · exact List.forall_mem_nil _
      simp only [visitStatements, visitStatement]
      exact List.forall_mem_append.mpr
        ⟨List.forall_mem_append.mpr ⟨hnode.found, hdiscarded⟩, ih hmentions.2 hnode.scope⟩

theorem Reports.exists_breaks {found : Diagnostics} (h : Reports found mentioned)
    {d : Diagnostic} (hd : d ∈ found) (herror : d.isError = true) :
    ∃ m ∈ mentioned, m.Breaks d := by
  have hmem : d ∈ found.errors := List.mem_filter.mpr ⟨hd, herror⟩
  obtain ⟨⟨i, hi⟩, rfl⟩ := List.mem_iff_get.mp hmem
  have hmentions := h.length_eq ▸ hi
  exact ⟨_, List.mem_of_mem_filter (List.get_mem _ ⟨i, hmentions⟩), h.get hmentions hi⟩

end Analysis

-- Every finding of an analysis is that of a rule that a name breaks, or a warning.
theorem found_analyze (script : Script) : ∀ d ∈ analyze script,
    (∃ m ∈ Node.mentionsAll script, m.Breaks d) ∨ Analysis.Warning (Node.mentionsAll script) d := by
  intro d hd
  have hempty : Analysis.Recorded (Node.mentionsAll script) .empty := by
    rintro _ _ ⟨⟩
  rcases Analysis.found_visitStatements script (List.Subset.refl _) hempty d hd with herror | hwarns
  · exact .inl ((Analysis.reports_visitStatements script .empty).exists_breaks hd herror)
  · exact .inr hwarns

-- The findings that are about a name. They are known as S001 to S004.
def Diagnostic.Code.isAboutName : Diagnostic.Code → Bool
  | .forbiddenWord | .reservedAssignment | .unknownFunction | .undefinedVariable => true
  | _ => false

-- The kind of mention that a finding is about; any mention can be forbidden.
def Mention.isBlamedBy : Mention → Diagnostic.Code → Bool
  | _, .forbiddenWord | target _ _, .reservedAssignment | read _ _, .undefinedVariable
  | callee _ _ _, .unknownFunction => true
  | _, _ => false

-- A finding stands where the script mentions the name that its message quotes,
-- and exactly this name stands there. A place that it relates to is that of an
-- assignment to the name quoted there.
structure Diagnostic.PointsAt (source : String) (mentioned : List Mention) (d : Diagnostic) :
    Prop where
  mention : ∃ m ∈ mentioned, m.isBlamedBy d.code = true ∧ m.name = quoted d.message ∧
    m.place = d.span
  chars : d.span.chars source = quoted d.message
  related : ∀ r ∈ d.related, .target (quoted r.message) r.span ∈ mentioned ∧
    r.span.chars source = quoted r.message

namespace Mention

variable {source : String} {mentioned : List Mention} {m : Mention}

theorem Breaks.pointsAt {d : Diagnostic} (h : m.Breaks d) (hm : m ∈ mentioned)
    (hshown : m.place.chars source = m.name) (hname : '\'' ∉ m.name.toList)
    (hcode : d.code.isAboutName = true) : d.PointsAt source mentioned := by
  cases h with
  | @forbidden _ category _ =>
      have hquoted := Diagnostic.quoted_forbidden hname category m.place
      exact ⟨⟨m, hm, rfl, hquoted.symm, rfl⟩, hshown.trans hquoted.symm, List.forall_mem_nil _⟩
  | @reserved name place _ _ =>
      have hquoted := Diagnostic.quoted_reservedTarget hname place
      exact ⟨⟨_, hm, rfl, hquoted.symm, rfl⟩, hshown.trans hquoted.symm, List.forall_mem_nil _⟩
  | @unknown name _ span _ _ =>
      have hquoted := Diagnostic.quoted_unknownFunction hname (Analysis.nameSpan span name)
      exact ⟨⟨_, hm, rfl, hquoted.symm, rfl⟩, hshown.trans hquoted.symm, List.forall_mem_nil _⟩
  | miscounted _ _ => cases hcode

end Mention

-- Where a name is likely to be meant that is in scope, its assignment is related.
theorem Analysis.related_undefined {scope : Scope} {name : String} {place : Span}
    {r : Diagnostic.Related} (h : r ∈ (undefined scope name place).related) :
    ∃ target span, scope.get? target = some span ∧ r = ⟨span, s!"'{target}' is assigned here"⟩ := by
  simp only [undefined] at h
  split at h
  · rename_i target span hcandidate
    obtain ⟨candidate, -, hfound⟩ := Option.bind_eq_some_iff.mp hcandidate
    obtain ⟨found, hget, hpair⟩ := Option.map_eq_some_iff.mp hfound
    cases hpair
    exact ⟨target, span, hget, List.mem_singleton.mp h⟩
  · cases h

-- Every finding about a name points at the name in the source, letter for
-- letter, and so does every place that it relates to.
theorem pointsAt_of_check {source : String} {script : Script}
    (h : parseSource source = .ok script) :
    ∀ d ∈ check source, d.code.isAboutName = true →
      d.PointsAt source (Node.mentionsAll script) := by
  have hshown := shown_of_parseSource h
  obtain ⟨tokens, htokens, hparse⟩ := parse_of_parseSource h
  have hcheck : check source = analyze script := by
    rw [check, htokens]
    simp only [hparse]
  intro d hd hcode
  rw [hcheck] at hd
  rcases found_analyze script d hd with ⟨m, hm, hbreaks⟩ | hwarns
  · obtain ⟨hplace, hname⟩ := hshown m hm
    exact hbreaks.pointsAt hm hplace hname hcode
  · cases hwarns with
    | @undefined scope name place hread hscope =>
        obtain ⟨hplace, hname⟩ := hshown _ hread
        have hquoted := Diagnostic.quoted_undefined hname scope place
        refine ⟨⟨_, hread, rfl, hquoted.symm, rfl⟩, hplace.trans hquoted.symm, ?_⟩
        intro r hr
        obtain ⟨target, span, hget, rfl⟩ := Analysis.related_undefined hr
        have htarget := hscope target span hget
        obtain ⟨hspan, hassigned⟩ := hshown _ htarget
        have hquoted : Diagnostic.quoted s!"'{target}' is assigned here" = target :=
          Diagnostic.quoted_assigned hassigned
        dsimp only
        rw [hquoted]
        exact ⟨htarget, hspan⟩
    | discarded _ => cases hcode

-- The name that is read differs from the assigned one in its first letter.
theorem pointsAt_of_check_unicode :
    let source := "Größe.x = close\nclose = größe.x"
    ∃ script d e, parseSource source = .ok script ∧ check source = [d, e] ∧
      d.code = .undefinedVariable ∧ d.related.length = 1 ∧ e.code = .reservedAssignment ∧
      d.PointsAt source (Node.mentionsAll script) ∧
      e.PointsAt source (Node.mentionsAll script) := by
  intro source
  have hparses : (parseSource source).isOk = true := by decide +kernel
  obtain ⟨script, hscript⟩ : ∃ script, parseSource source = .ok script := by
    cases hscript : parseSource source with
    | error e =>
        rw [hscript] at hparses
        cases hparses
    | ok script => exact ⟨script, rfl⟩
  have hfound : (check source).map (fun d => (d.code, d.related.length)) =
      [(.undefinedVariable, 1), (.reservedAssignment, 0)] := by
    decide +kernel
  obtain ⟨d, more, hcheck, hd, hmore⟩ := List.map_eq_cons_iff.mp hfound
  obtain ⟨e, _, rfl, he, hnil⟩ := List.map_eq_cons_iff.mp hmore
  cases List.map_eq_nil_iff.mp hnil
  obtain ⟨hcode, hrelated⟩ := Prod.mk.inj hd
  obtain ⟨hcodeOther, -⟩ := Prod.mk.inj he
  have hpoints := pointsAt_of_check hscript
  rw [hcheck, List.forall_mem_cons, List.forall_mem_singleton] at hpoints
  exact ⟨script, d, e, hscript, hcheck, hcode, hrelated, hcodeOther,
    hpoints.1 (by rw [hcode]; rfl), hpoints.2 (by rw [hcodeOther]; rfl)⟩

end CandleScript
