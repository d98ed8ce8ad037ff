import CandleScript.Proofs.Ir.Node
import CandleScript.Proofs.Json.Number
import CandleScript.Proofs.Json.Value

namespace CandleScript.Ir

open Json (Ends Layout Reader addWithin answer depthOfItems depthOfMembers isSpace skipSpace_append
  skipSpace_cons within)

theorem skipSpace_quote {blank : List Char} (hblank : ∀ c ∈ blank, isSpace c = true)
    (text : String) (rest : List Char) :
    Json.skipSpace (blank ++ (Json.quote text ++ rest)) =
      '"' :: (text.toList.flatMap Json.escapeChar ++ '"' :: rest) := by
  rw [skipSpace_append hblank, Json.quote]
  simp only [List.cons_append, List.append_assoc, List.nil_append]
  exact skipSpace_cons rfl _

theorem statementKind_quote {blank : List Char} (hblank : ∀ c ∈ blank, isSpace c = true)
    (kind : Kind) (rest : List Char) :
    statementKind (blank ++ (Json.quote kind.text ++ rest)) = .ok (kind, rest) := by
  have hbody := Json.textBody_escaped kind.text.toList rest
  rw [statementKind, skipSpace_quote hblank]
  simp only [hbody, Json.ok_bind, String.ofList_toList, ofText?_text]
  rfl

theorem draftMember_kind (layout : Layout) (room level : Nat) (kind : Kind) (rest : List Char) :
    draftMember room ⟨none, []⟩ "kind" (layout.valueChars level (.text kind.text) ++ rest) =
      .ok (⟨some kind, []⟩, rest) := by
  rw [draftMember, if_pos rfl]
  simp only [Json.colon_valueChars, Json.ok_bind]
  rw [Layout.chars, Json.scalarText, statementKind_quote layout.pad_blank]
  · rfl
  all_goals simp

def Draft.add (draft : Draft) (m : String × Json) : Draft :=
  { draft with members := draft.members ++ [m] }

theorem Draft.foldl_add (members : List (String × Json)) (draft : Draft) :
    members.foldl add draft = { draft with members := draft.members ++ members } := by
  induction members generalizing draft with
  | nil => rw [List.foldl_nil, List.append_nil]
  | cons m more ih =>
      rw [List.foldl_cons, ih, add]
      simp only [List.append_assoc, List.singleton_append]

theorem draftMember_add (layout : Layout) (room level : Nat) (draft : Draft) {m : String × Json}
    (hkey : m.1 ≠ "kind") (hvalue : m.2.Readable) {rest : List Char} (hrest : Ends rest) :
    draftMember room draft m.1 (layout.valueChars level m.2 ++ rest) =
      answer (addWithin room Draft.add draft m) rest := by
  rw [draftMember, if_neg hkey]
  simp only [Json.colon_valueChars, Json.ok_bind]
  rw [Json.value_append room layout.pad_blank, Json.value_chars layout room level hvalue hrest,
    addWithin]
  cases within room m.2 <;> rfl

theorem Node.readable_fields {node : Node} (h : node.toJson.Readable) :
    ∀ field ∈ node.fields, field.2.Readable := by
  rw [node.toJson_eq] at h
  exact Json.readable_of_mem_members h.2

-- The object of a written statement, read from behind the opening bracket.
theorem exists_objectStatement_eq (layout : Layout) (room level : Nat) {node : Node}
    (hnode : node.toJson.Readable) :
    ∃ text, layout.chars level node.toJson = '\x7b' :: text ∧ ∀ rest,
      objectStatement room (text ++ rest) =
        answer (if depthOfMembers node.fields ≤ room then some node else none) rest := by
  obtain ⟨text, htext, hread⟩ := Json.exists_members_cons layout level (draftMember room)
    "kind" (.text node.kind.text) node.fields ⟨none, []⟩
  refine ⟨text, by rw [node.toJson_eq, htext], ?_⟩
  intro rest
  obtain ⟨fuel, hfuel, hmembers⟩ := hread rest
  have hlater := Json.membersFrom_laterMembers layout (level + 1) (draftMember room)
    (addWithin room Draft.add) node.fields ⟨some node.kind, []⟩
    (fun m hm draft rest hrest => draftMember_add layout room (level + 1) draft
      (node.ne_kind m hm) (Node.readable_fields hnode m hm) hrest)
    (layout.gap_blank level) rest fuel hfuel
  rw [objectStatement, hmembers, draftMember_kind]
  simp only [Json.ok_bind, hlater, Json.foldlM_addWithin, Draft.foldl_add]
  by_cases hfits : depthOfMembers node.fields ≤ room
  · simp only [if_pos hfits, answer, Json.ok_bind, List.nil_append, fitting,
      ofMembers?_fields (node.readInside_nodeOf? room hfits)]
    rfl
  · simp only [if_neg hfits]
    rfl

theorem statement_object (room : Nat) (text : List Char) :
    statement room ('\x7b' :: text) =
      room.casesOn (.error .malformed) fun room => objectStatement room text := by
  have hspace : Json.skipSpace ('\x7b' :: text) = '\x7b' :: text := skipSpace_cons rfl _
  unfold statement
  rw [hspace]
  cases room <;> rfl

-- A written statement is read back if its brackets do not nest too deep.
theorem statement_chars (layout : Layout) (room level : Nat) {node : Node}
    (hnode : node.toJson.Readable) (rest : List Char) :
    statement room (layout.chars level node.toJson ++ rest) =
      answer (if node.toJson.depth ≤ room then some node else none) rest := by
  cases room with
  | zero =>
      obtain ⟨text, htext, -⟩ := exists_objectStatement_eq layout 0 level hnode
      rw [htext, List.cons_append, statement_object, node.depth_toJson,
        if_neg (Nat.not_succ_le_zero _)]
      rfl
  | succ room =>
      obtain ⟨text, htext, hread⟩ := exists_objectStatement_eq layout room level hnode
      rw [htext, List.cons_append, statement_object, node.depth_toJson]
      simp only [hread, Nat.succ_le_succ_iff]

theorem starts_statement (layout : Layout) (level : Nat) (node : Node) :
    Json.Starts (layout.chars level node.toJson) := by
  rw [node.toJson_eq, Layout.chars]
  exact ⟨'\x7b', _, rfl, by decide⟩

-- What a reader with `room` levels of brackets makes of a statement.
def nodeWithin (room : Nat) (value : Json) : Option Node := (within room value).bind (nodeOf? room)

theorem nodeWithin_toJson (room : Nat) (node : Node) :
    nodeWithin room node.toJson = if node.toJson.depth ≤ room then some node else none := by
  by_cases hfits : node.toJson.depth ≤ room
  · rw [nodeWithin, Json.within_of_le hfits, Option.bind_some, nodeOf?_toJson node room hfits,
      if_pos hfits]
  · rw [nodeWithin, Json.within_of_not_le hfits, Option.bind_none, if_neg hfits]

theorem mapM_nodeWithin (room : Nat) (nodes : List Node) :
    (nodesToJson nodes).mapM (nodeWithin room) =
      if depthOfItems (nodesToJson nodes) ≤ room then some nodes else none := by
  induction nodes with
  | nil => rfl
  | cons node rest ih =>
      rw [nodesToJson, List.mapM_cons, ih, nodeWithin_toJson]
      by_cases hnode : node.toJson.depth ≤ room <;>
        by_cases hrest : depthOfItems (nodesToJson rest) ≤ room <;>
          simp only [depthOfItems, Nat.max_le, hnode, hrest, true_and, and_true, and_self,
            if_true, if_false] <;> rfl

theorem exists_mem_nodesToJson {nodes : List Node} {value : Json} (h : value ∈ nodesToJson nodes) :
    ∃ node ∈ nodes, value = node.toJson := by
  induction nodes with
  | nil => cases h
  | cons node rest ih =>
      rcases List.mem_cons.mp h with rfl | h
      · exact ⟨node, List.mem_cons_self .., rfl⟩
      · obtain ⟨found, hfound, hvalue⟩ := ih h
        exact ⟨found, List.mem_cons_of_mem _ hfound, hvalue⟩

theorem statements_chars (layout : Layout) (room level : Nat) {nodes : List Node}
    (hnodes : Json.ReadableItems (nodesToJson nodes)) (rest : List Char) :
    statements room (layout.pad ++ (layout.chars level (.list (nodesToJson nodes)) ++ rest)) =
      answer (if depthOfItems (nodesToJson nodes) ≤ room then some nodes else none) rest := by
  obtain ⟨text, htext, hread⟩ := Json.exists_items_eq layout level (statement room)
    (nodeWithin room) (nodesToJson nodes)
    (by
      intro value hvalue
      obtain ⟨node, -, rfl⟩ := exists_mem_nodesToJson hvalue
      exact starts_statement layout (level + 1) node)
    (by
      intro value hvalue rest _
      have hreadable := Json.readable_of_mem_items hnodes value hvalue
      obtain ⟨node, -, rfl⟩ := exists_mem_nodesToJson hvalue
      rw [nodeWithin_toJson]
      exact statement_chars layout room (level + 1) hreadable rest)
  rw [statements, skipSpace_append layout.pad_blank, htext, List.cons_append, skipSpace_cons rfl]
  simp only [hread, mapM_nodeWithin]

theorem version_chars (layout : Layout) (level : Nat) {rest : List Char} (hrest : Ends rest) :
    version (layout.pad ++ (layout.chars level (.count documentVersion) ++ rest)) =
      .ok (documentVersion, rest) := by
  have hnumber : Json.number ('1' :: rest) = .ok (.integer 1, rest) := by
    have htext := Json.numberText_chars .truncated (n := ⟨false, ['1'], none, none⟩)
      ⟨Json.isDigits_singleton rfl, fun _ => rfl,
        fun _ h => absurd h.symm (Option.some_ne_none _)⟩ hrest
    change Json.numberText .truncated ('1' :: rest) = _ at htext
    rw [Json.number, htext]
    rfl
  have hchars : layout.chars level (.count documentVersion) = ['1'] := by
    rw [Json.count, Layout.chars]
    · rfl
    all_goals simp
  rw [version, skipSpace_append layout.pad_blank, hchars, List.singleton_append, skipSpace_cons rfl]
  simp only [hnumber]
  rfl

theorem outlineMember_version (layout : Layout) (level : Nat) {rest : List Char}
    (hrest : Ends rest) :
    outlineMember ⟨none, none⟩ "version"
      (layout.valueChars level (.count documentVersion) ++ rest) =
        .ok (⟨some documentVersion, none⟩, rest) := by
  rw [outlineMember, if_pos rfl]
  simp only [Json.colon_valueChars, Json.ok_bind, version_chars layout level hrest]
  rfl

theorem outlineMember_statements (layout : Layout) (level number : Nat) {nodes : List Node}
    (hnodes : Json.ReadableItems (nodesToJson nodes)) (rest : List Char) :
    outlineMember ⟨some number, none⟩ "statements"
      (layout.valueChars level (.list (nodesToJson nodes)) ++ rest) =
        answer (if depthOfItems (nodesToJson nodes) ≤ documentRoom - 2 then
          some ⟨some number, some nodes⟩ else none) rest := by
  rw [outlineMember, if_neg (by decide), if_pos rfl]
  simp only [Json.colon_valueChars, Json.ok_bind,
    statements_chars layout (documentRoom - 2) level hnodes]
  by_cases hfits : depthOfItems (nodesToJson nodes) ≤ documentRoom - 2
  · rw [if_pos hfits, if_pos hfits]
    rfl
  · rw [if_neg hfits, if_neg hfits]
    rfl

theorem Program.depth_toJson (p : Program) :
    p.toJson.depth = depthOfItems (nodesToJson p.statements) + 2 := by
  simp [Program.toJson, Json.depth, depthOfMembers, Json.count]

theorem exists_objectProgram_eq (layout : Layout) (level : Nat) (p : Program)
    (hnodes : Json.ReadableItems (nodesToJson p.statements)) :
    ∃ text, layout.chars level p.toJson = '\x7b' :: text ∧ ∀ rest,
      objectProgram (text ++ rest) =
        answer (if p.toJson.depth ≤ documentRoom then
          some (documentVersion, p.statements) else none) rest := by
  obtain ⟨text, htext, hread⟩ := Json.exists_members_cons layout level outlineMember
    "version" (.count documentVersion) [("statements", .list (nodesToJson p.statements))]
    ⟨none, none⟩
  refine ⟨text, by rw [Program.toJson, htext], ?_⟩
  intro rest
  obtain ⟨fuel, hfuel, hmembers⟩ := hread rest
  -- one step for the statements, and one for the closing bracket
  obtain ⟨fuel, rfl⟩ : ∃ more, fuel = more + 2 := ⟨fuel - 2, by simp at hfuel; omega⟩
  have hends := Json.ends_laterMembers layout (level + 1)
    [("statements", .list (nodesToJson p.statements))] (layout.gap_blank level) rest
  rw [objectProgram, hmembers, outlineMember_version layout (level + 1) hends]
  simp only [Json.ok_bind, Layout.laterMembers, List.cons_append, List.append_assoc,
    List.nil_append]
  rw [Json.membersFrom_comma outlineMember (fuel + 1) _ (layout.gap_blank (level + 1))]
  have hstatements := outlineMember_statements layout (level + 1) documentVersion hnodes
    (layout.gap level ++ '\x7d' :: rest)
  simp only [Layout.valueChars, List.cons_append, List.append_assoc] at hstatements
  rw [hstatements]
  by_cases hfits : depthOfItems (nodesToJson p.statements) ≤ documentRoom - 2
  · have hdepth : p.toJson.depth ≤ documentRoom := by
      rw [p.depth_toJson]
      exact Nat.add_le_of_le_sub (by decide) hfits
    rw [if_pos hfits, if_pos hdepth]
    simp only [answer, Json.ok_bind]
    rw [Json.membersFrom_close outlineMember fuel _ (layout.gap_blank level)]
    rfl
  · have hdepth : ¬ p.toJson.depth ≤ documentRoom := by
      rw [p.depth_toJson]
      exact fun h => hfits (Nat.le_sub_of_add_le h)
    rw [if_neg hfits, if_neg hdepth]
    rfl

-- A written program is read back if its brackets do not nest too deep, and
-- its document is refused as malformed otherwise.
theorem ofDocument_chars (layout : Layout) (p : Program)
    (hnodes : Json.ReadableItems (nodesToJson p.statements)) :
    Program.ofDocument (String.ofList (layout.chars 0 p.toJson)) =
      if p.toJson.depth ≤ documentRoom then .ok p else .error (.fault .malformed) := by
  obtain ⟨text, htext, hread⟩ := exists_objectProgram_eq layout 0 p hnodes
  have hprogram : program (layout.chars 0 p.toJson) =
      answer (if p.toJson.depth ≤ documentRoom then
        some (documentVersion, p.statements) else none) [] := by
    have hobject := hread []
    rw [List.append_nil] at hobject
    rw [htext, program, skipSpace_cons rfl]
    exact hobject
  rw [Program.ofDocument, String.toList_ofList, hprogram]
  by_cases hfits : p.toJson.depth ≤ documentRoom
  · rw [if_pos hfits, if_pos hfits]
    rfl
  · rw [if_neg hfits, if_neg hfits]
    rfl

theorem document_eq (p : Program) :
    p.document = String.ofList (Layout.compact.chars 0 p.toJson) := by
  rw [Layout.chars_compact]
  rfl

theorem prettyDocument_eq (p : Program) :
    p.prettyDocument = String.ofList (Layout.pretty.chars 0 p.toJson) := by
  rw [Layout.chars_pretty]
  rfl

end CandleScript.Ir
