import CandleScript.Proofs.Ir.RoundTrip
import CandleScript.Proofs.Json.Bounds

namespace CandleScript.Ir

open Json (Yields depth depthOfItems depthOfMembers yields_any yields_error yields_ok)

-- A node with finite numbers whose document has brackets at most `room` deep.
structure Node.Storable (room : Nat) (node : Node) : Prop where
  depth_le : node.toJson.depth ≤ room
  finite : node.Finite

theorem storable_all {room : Nat} {nodes : List Node} (h : ∀ node ∈ nodes, node.Storable room) :
    depthOfItems (nodesToJson nodes) ≤ room ∧ Node.AllFinite nodes := by
  induction nodes with
  | nil => exact ⟨Nat.zero_le room, trivial⟩
  | cons node rest ih =>
      rw [List.forall_mem_cons] at h
      obtain ⟨hdepth, hfinite⟩ := ih h.2
      exact ⟨Nat.max_le.mpr ⟨h.1.depth_le, hdepth⟩, h.1.finite, hfinite⟩

section

variable {room : Nat}

theorem Node.Storable.assign {value : Node} (h : value.Storable room) (name : String) :
    (Node.assign name value).Storable (room + 1) := by
  have hdepth := h.depth_le
  refine ⟨?_, h.finite⟩
  rw [Node.depth_toJson]
  simp only [Node.fields, depth, depthOfMembers]
  omega

theorem Node.Storable.binary {left right : Node} (hleft : left.Storable room)
    (hright : right.Storable room) (op : Operator) :
    (Node.binary op left right).Storable (room + 1) := by
  have hdepth := hleft.depth_le
  have hdepth' := hright.depth_le
  refine ⟨?_, hleft.finite, hright.finite⟩
  rw [Node.depth_toJson]
  simp only [Node.fields, depth, depthOfMembers]
  omega

theorem Node.Storable.call {args : List Node} (h : ∀ arg ∈ args, arg.Storable room)
    (func : String) : (Node.call func args).Storable (room + 2) := by
  obtain ⟨hdepth, hfinite⟩ := storable_all h
  refine ⟨?_, hfinite⟩
  rw [Node.depth_toJson]
  simp only [Node.fields, depth, depthOfMembers]
  omega

theorem Node.storable_var (room : Nat) (name : String) : (Node.var name).Storable (room + 1) :=
  ⟨Nat.succ_le_succ (Nat.zero_le room), trivial⟩

theorem Node.storable_const {c : Constant} (h : c.Finite) (room : Nat) :
    (Node.const c).Storable (room + 1) := by
  refine ⟨?_, h⟩
  rw [Node.depth_toJson]
  cases c <;> exact Nat.succ_le_succ (Nat.zero_le room)

end

theorem mem_of_only? {key : String} {members : List (String × Json)} {value : Json}
    (h : only? key members = some value) : ∃ found, (found, value) ∈ members := by
  unfold only? at h
  split at h
  · rename_i found value' hfilter
    cases h
    have hmem : (found, value) ∈ members.filter fun m => m.1 = key :=
      hfilter ▸ List.mem_singleton_self _
    exact ⟨found, (List.mem_filter.mp hmem).1⟩
  · cases h

theorem finite_of_constantOf? {value : Json} {c : Constant} (hvalue : value.Finite)
    (h : constantOf? value = some c) : c.Finite := by
  cases value with
  | integer n =>
      cases h
      exact hvalue
  | real x =>
      cases h
      exact hvalue
  | bool b =>
      cases h
      trivial
  | text s =>
      cases h
      trivial
  | null => cases h
  | list items => cases h
  | object members => cases h

theorem exists_of_mapM {α β : Type} {f : α → Option β} {xs : List α} {ys : List β}
    (h : xs.mapM f = some ys) : ∀ y ∈ ys, ∃ x ∈ xs, f x = some y := by
  induction xs generalizing ys with
  | nil =>
      cases h
      exact List.forall_mem_nil _
  | cons x xs ih =>
      simp only [List.mapM_cons, Option.bind_eq_bind, Option.bind_eq_some_iff] at h
      obtain ⟨first, hfirst, rest, hrest, hys⟩ := h
      cases hys
      rw [List.forall_mem_cons]
      refine ⟨⟨x, List.mem_cons_self .., hfirst⟩, fun y hy => ?_⟩
      obtain ⟨x', hx', hfx'⟩ := ih hrest y hy
      exact ⟨x', List.mem_cons_of_mem x hx', hfx'⟩

-- A reader of nodes that adds neither brackets nor infinite numbers to what it
-- reads.
structure Keeps (read : Json → Option Node) : Prop where
  storable : ∀ {room : Nat} {value : Json} {node : Node}, value.Fits room →
    read value = some node → node.Storable room

section

variable {read : Json → Option Node} (hread : Keeps read)

include hread

theorem Keeps.args {room : Nat} {args : List Json} {nodes : List Node}
    (hargs : Json.Fits room (.list args)) (h : args.mapM read = some nodes) (func : String) :
    (Node.call func nodes).Storable (room + 1) := by
  obtain ⟨inner, rfl, hinner⟩ := hargs.of_list
  apply Node.Storable.call
  intro node hnode
  obtain ⟨arg, harg, hfound⟩ := exists_of_mapM h node hnode
  exact hread.storable (hinner arg harg) hfound

-- The brackets of a node take the place of those around its fields.
theorem Keeps.assemble {room : Nat} {kind : Kind} {values : List Json} {node : Node}
    (hvalues : ∀ value ∈ values, value.Fits room)
    (h : assemble read kind values = some node) : node.Storable (room + 1) := by
  unfold Ir.assemble at h
  split at h
  · rename_i name value
    simp only [List.forall_mem_cons] at hvalues
    simp only [Option.bind_eq_bind, Option.bind_eq_some_iff] at h
    obtain ⟨_, -, inner, hinner, hnode⟩ := h
    cases hnode
    exact (hread.storable hvalues.2.1 hinner).assign _
  · rename_i op left right
    simp only [List.forall_mem_cons] at hvalues
    simp only [Option.bind_eq_bind, Option.bind_eq_some_iff] at h
    obtain ⟨_, -, first, hfirst, second, hsecond, hnode⟩ := h
    cases hnode
    exact (hread.storable hvalues.2.1 hfirst).binary (hread.storable hvalues.2.2.1 hsecond) _
  · rename_i func args
    simp only [List.forall_mem_cons] at hvalues
    simp only [Option.bind_eq_bind, Option.bind_eq_some_iff] at h
    obtain ⟨_, -, nodes, hnodes, hnode⟩ := h
    cases hnode
    exact hread.args hvalues.2.1 hnodes _
  · simp only [Option.bind_eq_bind, Option.bind_eq_some_iff] at h
    obtain ⟨_, -, hnode⟩ := h
    cases hnode
    exact Node.storable_var room _
  · rename_i value
    simp only [Option.bind_eq_bind, Option.bind_eq_some_iff] at h
    obtain ⟨c, hc, hnode⟩ := h
    cases hnode
    have hvalue := hvalues value List.mem_cons_self
    exact Node.storable_const (finite_of_constantOf? hvalue.finite hc) room
  · cases h

theorem Keeps.ofMembers? {room : Nat} {kind : Kind} {members : List (String × Json)} {node : Node}
    (hmembers : ∀ m ∈ members, m.2.Fits room)
    (h : ofMembers? read kind members = some node) : node.Storable (room + 1) := by
  simp only [Ir.ofMembers?, Option.bind_eq_bind, Option.bind_eq_some_iff] at h
  obtain ⟨values, hvalues, h⟩ := h
  refine hread.assemble (fun value hvalue => ?_) h
  obtain ⟨key, -, hfound⟩ := exists_of_mapM hvalues value hvalue
  obtain ⟨_, hmem⟩ := mem_of_only? hfound
  exact hmembers _ hmem

end

-- The levels that the reader has left say nothing about the depth of the value:
-- that is bounded by the room it was read in.
theorem keeps_nodeOf? (level : Nat) : Keeps (nodeOf? level) := by
  induction level with
  | zero =>
      constructor
      intro room value node _ h
      cases h
  | succ level ih =>
      constructor
      intro room value node hvalue h
      cases value with
      | object members =>
          obtain ⟨inner, rfl, hmembers⟩ := hvalue.of_object
          simp only [nodeOf?, Option.bind_eq_bind, Option.bind_eq_some_iff] at h
          obtain ⟨_, -, _, -, h⟩ := h
          exact ih.ofMembers? (fun m hm => hmembers m (List.mem_filter.mp hm).1) h
      | list items =>
          cases items with
          | nil => cases h
          | cons kind values =>
              obtain ⟨inner, rfl, hitems⟩ := hvalue.of_list
              simp only [nodeOf?, Option.bind_eq_bind, Option.bind_eq_some_iff] at h
              obtain ⟨_, -, h⟩ := h
              exact ih.assemble (fun value hmem => hitems value (List.mem_cons_of_mem kind hmem)) h
      | _ => cases h

section

variable {α : Type} {P : α → Prop}

theorem yields_fitting {found : Option α} (h : ∀ x, found = some x → P x) (rest : List Char) :
    Yields P (do return (← fitting found, rest)) := by
  cases found with
  | none => exact yields_error P _
  | some x => exact yields_ok (h x rfl) rest

theorem yields_misfit (P : α → Prop) (cs : List Char) : Yields P (misfit cs) := by
  rw [misfit]
  split
  · exact yields_error P _
  · exact yields_error P _

end

-- What is known of a statement while it is read: its fields fit.
def Draft.Fits (room : Nat) (draft : Draft) : Prop := ∀ m ∈ draft.members, m.2.Fits room

theorem yields_draftMember (room : Nat) (draft : Draft) (key : String) (cs : List Char)
    (hdraft : draft.Fits room) : Yields (Draft.Fits room) (draftMember room draft key cs) := by
  unfold draftMember
  split
  · split
    · exact yields_error _ _
    · apply (yields_any _).bind
      intro _ rest _
      apply (yields_any _).bind
      intro kind rest _
      apply yields_ok
      exact hdraft
  · apply (yields_any _).bind
    intro _ rest _
    apply (Json.yields_value room rest).bind
    intro value rest hvalue
    apply yields_ok
    intro m hm
    rcases List.mem_append.mp hm with hm | hm
    · exact hdraft m hm
    · cases List.mem_singleton.mp hm
      exact hvalue

theorem yields_objectStatement (room : Nat) (cs : List Char) :
    Yields (Node.Storable (room + 1)) (objectStatement room cs) := by
  have hstart : Draft.Fits room ⟨none, []⟩ := List.forall_mem_nil _
  have hdraft := Json.yields_members (yields_draftMember room) hstart cs
  unfold objectStatement
  apply hdraft.bind
  rintro ⟨kind, members⟩ rest hmembers
  cases kind with
  | none => exact yields_error _ _
  | some kind =>
      apply yields_fitting
      intro node hnode
      exact (keeps_nodeOf? room).ofMembers? hmembers hnode

theorem yields_listStatement (room : Nat) (cs : List Char) :
    Yields (Node.Storable (room + 1)) (listStatement room cs) := by
  unfold listStatement
  split
  · exact yields_error _ _
  · apply (yields_any _).bind
    intro kind rest _
    apply (Json.yields_itemsFrom (Json.yields_value room) _ _ rest).bind
    intro values rest hvalues
    apply yields_fitting
    intro node hnode
    exact (keeps_nodeOf? room).assemble hvalues hnode

-- A statement that is read has no deeper brackets when it is written.
theorem yields_statement (room : Nat) (cs : List Char) :
    Yields (Node.Storable room) (statement room cs) := by
  unfold statement
  split
  · exact yields_error _ _
  · exact yields_error _ _
  · exact yields_listStatement _ _
  · exact yields_objectStatement _ _
  · exact yields_misfit _ _

def AllStorable (room : Nat) (nodes : List Node) : Prop := ∀ node ∈ nodes, node.Storable room

theorem yields_statements (room : Nat) (cs : List Char) :
    Yields (AllStorable room) (statements room cs) := by
  unfold statements
  split
  · exact Json.yields_items (yields_statement room) _
  · exact yields_misfit _ _

def Outline.Storable (room : Nat) (outline : Outline) : Prop :=
  ∀ nodes, outline.statements = some nodes → AllStorable room nodes

theorem yields_outlineMember (outline : Outline) (key : String) (cs : List Char)
    (h : outline.Storable (documentRoom - 2)) :
    Yields (Outline.Storable (documentRoom - 2)) (outlineMember outline key cs) := by
  unfold outlineMember
  split
  · split
    · exact yields_error _ _
    · apply (yields_any _).bind
      intro _ rest _
      apply (yields_any _).bind
      intro number rest _
      apply yields_ok
      exact h
  · split
    · split
      · exact yields_error _ _
      · apply (yields_any _).bind
        intro _ rest _
        apply (yields_statements _ rest).bind
        intro nodes rest hnodes
        apply yields_ok
        rintro _ ⟨⟩
        exact hnodes
    · apply (yields_any _).bind
      intro _ rest _
      apply (yields_any _).bind
      intro _ rest _
      exact yields_ok h rest

theorem yields_objectProgram (cs : List Char) :
    Yields (fun read => AllStorable (documentRoom - 2) read.2) (objectProgram cs) := by
  have hstart : Outline.Storable (documentRoom - 2) ⟨none, none⟩ := fun _ h => nomatch h
  have houtline := Json.yields_members yields_outlineMember hstart cs
  unfold objectProgram
  apply houtline.bind
  rintro ⟨number, nodes⟩ rest h
  cases number with
  | none => exact yields_error _ _
  | some number =>
      cases nodes with
      | none => exact yields_error _ _
      | some nodes =>
          apply yields_ok
          exact h nodes rfl

theorem yields_listProgram (cs : List Char) :
    Yields (fun read => AllStorable (documentRoom - 2) read.2) (listProgram cs) := by
  unfold listProgram
  split
  · exact yields_error _ _
  · apply (yields_any _).bind
    intro number rest _
    dsimp only
    split
    · exact yields_error _ _
    · exact yields_error _ _
    · split
      · exact yields_error _ _
      · exact yields_error _ _
      · apply (yields_statements _ _).bind
        intro nodes rest hnodes
        dsimp only
        split
        · exact yields_error _ _
        · apply yields_ok
          exact hnodes
        · exact yields_error _ _
    · exact yields_error _ _

theorem yields_program (cs : List Char) :
    Yields (fun read => AllStorable (documentRoom - 2) read.2) (program cs) := by
  unfold program
  split
  · exact yields_listProgram _
  · exact yields_objectProgram _
  · exact yields_misfit _ _

theorem allStorable_of_ofDocument {text : String} {p : Program}
    (h : Program.ofDocument text = .ok p) : AllStorable (documentRoom - 2) p.statements := by
  unfold Program.ofDocument at h
  split at h
  · cases h
  · rename_i number nodes rest hread
    split at h
    · cases h
    · split at h
      · cases h
        exact (yields_program text.toList).of_ok hread
      · cases h

-- Whichever of the accepted forms a document has, its program has finite numbers
-- only, nests no deeper once it is written, and so is read back from both texts.
theorem ofDocument_normalises {text : String} {p : Program}
    (h : Program.ofDocument text = .ok p) :
    Node.AllFinite p.statements ∧ Program.ofDocument p.document = .ok p ∧
      Program.ofDocument p.prettyDocument = .ok p := by
  obtain ⟨hdepth, hfinite⟩ := storable_all (allStorable_of_ofDocument h)
  have hread : p.readBack = .ok p := by
    apply Program.readBack_of_le
    rw [p.depth_toJson]
    exact Nat.add_le_of_le_sub (by decide) hdepth
  rw [ofDocument_document hfinite, ofDocument_prettyDocument hfinite]
  exact ⟨hfinite, hread, hread⟩

-- A program and a statement that are written as lists, with a whole number.
def listDocument : String := "[1,[[\"Const\",3]]]"

theorem ofDocument_listDocument :
    Program.ofDocument listDocument = .ok ⟨[.const (.number (Float.ofInt 3))]⟩ := by
  have hversion : ∀ rest, version ('1' :: ',' :: rest) = .ok (1, ',' :: rest) := fun _ => rfl
  have hvalue : ∀ rest, Json.value 124 ('3' :: ']' :: rest) = .ok (.integer 3, ']' :: rest) :=
    fun _ => rfl
  have hkind : ∀ rest, statementKind ('"' :: 'C' :: 'o' :: 'n' :: 's' :: 't' :: '"' :: rest) =
      .ok (.const, rest) := by
    simp [statementKind, Json.skipSpace, Json.isSpace, Json.textBody, Json.push, Except.map,
      Json.ok_bind, Kind.ofText?, Kind.all, Kind.text, fitting, pure, Except.pure]
  have hstatement : ∀ rest, statement 125
      ('[' :: '"' :: 'C' :: 'o' :: 'n' :: 's' :: 't' :: '"' :: ',' :: '3' :: ']' :: rest) =
        .ok (.const (.number (Float.ofInt 3)), rest) := by
    simp [statement, listStatement, hkind, hvalue, Json.itemsFrom, Json.itemsFrom.more,
      Json.skipSpace, Json.isSpace, Json.ok_bind, assemble, constantOf?, fitting, pure,
      Except.pure]
  have hprogram : program listDocument.toList =
      .ok ((1, [.const (.number (Float.ofInt 3))]), []) := by
    simp [listDocument, program, listProgram, hversion, hstatement, statements, Json.items,
      Json.itemsFrom, Json.itemsFrom.more, Json.skipSpace, Json.isSpace, Json.ok_bind,
      documentRoom, pure, Except.pure]
  rw [Program.ofDocument, hprogram]
  rfl

theorem ofDocument_normalises_listDocument :
    ∃ p, Program.ofDocument listDocument = .ok p ∧ p.document =
        "\x7b\"version\":1,\"statements\":[\x7b\"kind\":\"Const\",\"value\":3.0\x7d]\x7d" ∧
      Node.AllFinite p.statements ∧ Program.ofDocument p.document = .ok p ∧
      Program.ofDocument p.prettyDocument = .ok p :=
  ⟨_, ofDocument_listDocument, by decide +kernel, ofDocument_normalises ofDocument_listDocument⟩

end CandleScript.Ir
