import CoqConsole.Markup.Wire

/-!
# Written forms of trees

A tree can be written in several ways: a text bare, as a string or as the words of a comment, a box kind bare or at the
head of a list, and every node with more parts behind those that it needs. Each of them is read as that tree. A node or a
box kind under a name that does not exist, at any depth, is all that is found: the first of them is the failure.

* `Failure.IsUnreadable` : the failures of a value that is no layout tree;
* `Form`, `Form.doc`, `Form.json` : a way to write a tree, with names replaced at will; the tree; what is written;
* `Swap`, `Form.swaps` : a replaced name, and all of them in the order in which a form is read;
* `Form.ofJson_json` : what a form is read as; `Doc.IsPlain`, `isPlain_iff_exists_form` : the trees that have forms;
* `forms_read` : so it is with every tree and every form of it.
-/

namespace CoqConsole

/-- The failures of a value that is no layout tree. -/
inductive Failure.IsUnreadable : Failure → Prop
  | box (spec : Json) : IsUnreadable (.unknownBox spec)
  | tree (wire : Json) : IsUnreadable (.malformedTree wire)
  | node (tag : String) (wire : Json) : IsUnreadable (.malformedNode tag wire)
  | name (tag : Json) : IsUnreadable (.unknownNode tag)

namespace Markup

/-! ## Names -/

theorem NodeName.ofJson?_wireName (n : NodeName) : ofJson? (.text n.wireName) = some n := by
  cases n <;> rfl

theorem NodeName.ofJson?_eq_none {name : String} (h : ∀ n : NodeName, n.wireName ≠ name) :
    ofJson? (.text name) = none := by
  simp [ofJson?, h]

theorem BoxKind.named?_wireName (k : BoxKind) : named? k.wireName = some k := by
  cases k <;> rfl

theorem BoxKind.named?_eq_none {name : String} (h : ∀ k : BoxKind, k.wireName ≠ name) : named? name = none := by
  simp [named?, h]

/-- A box kind as it is written: bare, or with anything behind it. -/
def specOf (name : String) : Option (List Json) → Json
  | none => .text name
  | some indent => .array (.text name :: indent)

theorem BoxKind.ofJson_specOf (k : BoxKind) (indent : Option (List Json)) :
    ofJson (specOf k.wireName indent) = .ok k := by
  cases indent <;> simp [specOf, ofJson, named?_wireName]

theorem BoxKind.ofJson_specOf_unknown {name : String} (h : ∀ k : BoxKind, k.wireName ≠ name)
    (indent : Option (List Json)) : ofJson (specOf name indent) = .error (.unknownBox (specOf name indent)) := by
  cases indent <;> simp [specOf, ofJson, named?_eq_none h]

theorem allTexts?_map (words : List String) : allTexts? (words.map .text) = some words := by
  induction words with
  | nil => rfl
  | cons w words ih => simp [allTexts?, ih]

theorem allTexts?_eq_some {contents : List Json} {texts : List String} :
    allTexts? contents = some texts ↔ contents = texts.map .text := by
  constructor
  · intro h
    fun_induction allTexts? contents generalizing texts with
    | case1 => cases h; rfl
    | case2 s rest ih =>
      obtain ⟨ts, hts, rfl⟩ := Option.map_eq_some_iff.mp h
      rw [ih hts, List.map_cons]
    | case3 => cases h
  · rintro rfl
    exact allTexts?_map texts

/-! ## Forms -/

/-- A way to write a tree. The name of a node or of a box kind may be replaced by another text, and `more` is what
stands behind the parts that a node needs. -/
inductive Form
  | bare (s : String)
  | string (name : Option String) (s : String) (more : List Json)
  | comment (name : Option String) (words : List String) (more : List Json)
  | empty (name : Option String) (more : List Json)
  | glue (name : Option String) (items : List Form) (more : List Json)
  | box (name : Option String) (kind : BoxKind) (kindName : Option String) (indent : Option (List Json)) (child : Form)
    (more : List Json)
  | tag (name : Option String) (label : String) (child : Form) (more : List Json)
  | gap (name : Option String) (width : Int) (more : List Json)
  | newline (name : Option String) (more : List Json)

/-- A name that was replaced: that of a node, or that of a box kind with what stands behind it. -/
inductive Swap
  | node (name : String)
  | kind (name : String) (indent : Option (List Json))

namespace Swap

def IsUnknown : Swap → Prop
  | node name => ∀ n : NodeName, n.wireName ≠ name
  | kind name _ => ∀ k : BoxKind, k.wireName ≠ name

def cause : Swap → Failure
  | node name => .unknownNode (.text name)
  | kind name indent => .unknownBox (specOf name indent)

theorem isUnreadable_cause (s : Swap) : s.cause.IsUnreadable := by
  cases s with
  | node name => exact .name _
  | kind name indent => exact .box _

end Swap

def nodeOf (n : NodeName) (name : Option String) (parts : List Json) : Json :=
  .array (.text (name.getD n.wireName) :: parts)

theorem ofJson_glue (items rest : List Json) :
    Doc.ofJson (nodeOf .glue none (.array items :: rest)) = (Doc.ofItems items).map .glue := rfl

theorem ofJson_box (spec child : Json) (rest : List Json) :
    Doc.ofJson (nodeOf .box none (spec :: child :: rest)) =
      BoxKind.ofJson spec >>= fun kind => Doc.ofJson child >>= fun d => pure (.box kind d) := rfl

theorem ofJson_tag (label child : Json) (rest : List Json) :
    Doc.ofJson (nodeOf .tag none (label :: child :: rest)) = (Doc.ofJson child).map (.tag label) := rfl

theorem ofJson_comment (words : Json) (rest : List Json) :
    Doc.ofJson (nodeOf .comment none (words :: rest)) = (comment? words).elim
      (.error (.malformedNode NodeName.comment.wireName (nodeOf .comment none (words :: rest)))) fun s => .ok (.text s) := by
  simp only [nodeOf, Option.getD_none, Doc.ofJson, NodeName.ofJson?_wireName]
  cases comment? words <;> rfl

namespace Form

mutual

def doc : Form → Doc
  | bare s => .text s
  | string _ s _ => .text s
  | comment _ words _ => .text (String.intercalate " " words)
  | empty _ _ => .empty
  | glue _ items _ => .glue (docs items)
  | box _ kind _ _ child _ => .box kind child.doc
  | tag _ label child _ => .tag (.text label) child.doc
  | gap _ width _ => .gap width
  | newline _ _ => .newline

def docs : List Form → List Doc
  | [] => []
  | f :: fs => f.doc :: docs fs

end

mutual

def json : Form → Json
  | bare s => .text s
  | string name s more => nodeOf .string name (.text s :: more)
  | comment name words more => nodeOf .comment name (.array (words.map .text) :: more)
  | empty name more => nodeOf .empty name more
  | glue name items more => nodeOf .glue name (.array (jsons items) :: more)
  | box name kind kindName indent child more =>
    nodeOf .box name (specOf (kindName.getD kind.wireName) indent :: child.json :: more)
  | tag name label child more => nodeOf .tag name (.text label :: child.json :: more)
  | gap name width more => nodeOf .printBreak name (.int width :: more)
  | newline name more => nodeOf .forceNewline name more

/-- What is written, form by form. -/
def jsons : List Form → List Json
  | [] => []
  | f :: fs => f.json :: jsons fs

end

def swapped (name : Option String) : List Swap := (name.map .node).toList

mutual

/-- The names that were replaced, in the order in which they are read. -/
def swaps : Form → List Swap
  | bare _ => []
  | string name _ _ | comment name _ _ | empty name _ | gap name _ _ | newline name _ => swapped name
  | glue name items _ => swapped name ++ swapsAll items
  | box name _ kindName indent child _ => swapped name ++ ((kindName.map (.kind · indent)).toList ++ child.swaps)
  | tag name _ child _ => swapped name ++ child.swaps

def swapsAll : List Form → List Swap
  | [] => []
  | f :: fs => f.swaps ++ swapsAll fs

end

/-! ## What a form is read as -/

/-- What comes of reading: the first replaced name is a failure. -/
def outcome {α : Type} (swaps : List Swap) (a : α) : Except Failure α :=
  match swaps with
  | [] => .ok a
  | s :: _ => .error s.cause

theorem map_outcome {α β : Type} (f : α → β) (ss : List Swap) (a : α) :
    (outcome ss a).map f = outcome ss (f a) := by
  cases ss <;> rfl

/-- A node under a name that does not exist is not read any further. -/
theorem ofJson_nodeOf {n : NodeName} {name : Option String} {parts : List Json} {ts : List Swap} {d : Doc}
    (h : ∀ s ∈ swapped name, s.IsUnknown) (hparts : Doc.ofJson (nodeOf n none parts) = outcome ts d) :
    Doc.ofJson (nodeOf n name parts) = outcome (swapped name ++ ts) d := by
  cases name with
  | none => exact hparts
  | some t =>
    have hunknown : ∀ n : NodeName, n.wireName ≠ t := h (.node t) (by simp [swapped])
    simp [nodeOf, Doc.ofJson, NodeName.ofJson?_eq_none hunknown, swapped, outcome, Swap.cause]

mutual

/-- A form is read as its tree, or fails for the first name that was replaced. -/
theorem ofJson_json : (f : Form) → (∀ s ∈ f.swaps, s.IsUnknown) → Doc.ofJson f.json = outcome f.swaps f.doc
  | bare s, _ => rfl
  | string name s more, h => by
    rw [swaps, ← List.append_nil (swapped name)]
    exact ofJson_nodeOf h rfl
  | comment name words more, h => by
    rw [swaps, ← List.append_nil (swapped name)]
    refine ofJson_nodeOf h ?_
    simp [ofJson_comment, comment?, Json.elements, allTexts?_map, outcome, doc]
  | empty name more, h => by
    rw [swaps, ← List.append_nil (swapped name)]
    exact ofJson_nodeOf h rfl
  | glue name items more, h => by
    rw [swaps, List.forall_mem_append] at h
    refine ofJson_nodeOf h.1 ?_
    rw [ofJson_glue, ofItems_jsons items h.2, map_outcome]
    rfl
  | box name kind kindName indent child more, h => by
    rw [swaps, List.forall_mem_append, List.forall_mem_append] at h
    obtain ⟨hname, hkind, hchild⟩ := h
    refine ofJson_nodeOf hname ?_
    rw [ofJson_box]
    cases kindName with
    | none =>
      rw [Option.getD_none, kind.ofJson_specOf, ofJson_json child hchild]
      cases child.swaps <;> rfl
    | some t =>
      have hunknown : ∀ k : BoxKind, k.wireName ≠ t := hkind (.kind t indent) (by simp)
      rw [Option.getD_some, BoxKind.ofJson_specOf_unknown hunknown]
      rfl
  | tag name label child more, h => by
    rw [swaps, List.forall_mem_append] at h
    refine ofJson_nodeOf h.1 ?_
    rw [ofJson_tag, ofJson_json child h.2, map_outcome]
    rfl
  | gap name width more, h => by
    rw [swaps, ← List.append_nil (swapped name)]
    exact ofJson_nodeOf h rfl
  | newline name more, h => by
    rw [swaps, ← List.append_nil (swapped name)]
    exact ofJson_nodeOf h rfl

theorem ofItems_jsons : (fs : List Form) → (∀ s ∈ swapsAll fs, s.IsUnknown) →
    Doc.ofItems (jsons fs) = outcome (swapsAll fs) (docs fs)
  | [], _ => rfl
  | f :: fs, h => by
    rw [swapsAll, List.forall_mem_append] at h
    simp only [jsons, Doc.ofItems, swapsAll]
    rw [ofJson_json f h.1, ofItems_jsons fs h.2]
    cases f.swaps with
    | nil => cases swapsAll fs <;> rfl
    | cons => rfl

end

end Form

/-! ## The trees that have forms -/

/-- All texts and labels are texts, all widths whole numbers, and all nodes are nodes. -/
inductive Doc.IsPlain : Doc → Prop
  | empty : IsPlain .empty
  | text (s : String) : IsPlain (.text s)
  | glue {children : List Doc} (h : ∀ d ∈ children, IsPlain d) : IsPlain (.glue children)
  | box (kind : BoxKind) {child : Doc} (h : IsPlain child) : IsPlain (.box kind child)
  | tag (label : String) {child : Doc} (h : IsPlain child) : IsPlain (.tag (.text label) child)
  | gap (width : Int) : IsPlain (.gap width)
  | newline : IsPlain .newline

mutual

theorem Form.isPlain_doc : (f : Form) → f.doc.IsPlain
  | .bare s => .text s
  | .string _ s _ => .text s
  | .comment _ words _ => .text (String.intercalate " " words)
  | .empty _ _ => .empty
  | .glue _ items _ => .glue (isPlain_docs items)
  | .box _ kind _ _ child _ => .box kind child.isPlain_doc
  | .tag _ label child _ => .tag label child.isPlain_doc
  | .gap _ width _ => .gap width
  | .newline _ _ => .newline

theorem Form.isPlain_docs : (fs : List Form) → ∀ d ∈ Form.docs fs, d.IsPlain
  | [] => List.forall_mem_nil _
  | f :: fs => List.forall_mem_cons.mpr ⟨f.isPlain_doc, isPlain_docs fs⟩

end

theorem Doc.IsPlain.exists_form {d : Doc} (h : d.IsPlain) : ∃ f : Form, f.swaps = [] ∧ f.doc = d := by
  induction h with
  | empty => exact ⟨.empty none [], rfl, rfl⟩
  | text s => exact ⟨.bare s, rfl, rfl⟩
  | @glue children _ ih =>
    have hitems : ∃ items : List Form, Form.swapsAll items = [] ∧ Form.docs items = children := by
      induction children with
      | nil => exact ⟨[], rfl, rfl⟩
      | cons d children ihs =>
        obtain ⟨f, hf, rfl⟩ := ih d List.mem_cons_self
        obtain ⟨items, hitems, rfl⟩ := ihs (fun d hd => ‹∀ d ∈ _, d.IsPlain› d (List.mem_cons_of_mem _ hd))
          fun d hd => ih d (List.mem_cons_of_mem _ hd)
        exact ⟨f :: items, by simp [Form.swapsAll, hf, hitems], rfl⟩
    obtain ⟨items, hswaps, rfl⟩ := hitems
    exact ⟨.glue none items [], hswaps, rfl⟩
  | box kind _ ih =>
    obtain ⟨f, hf, rfl⟩ := ih
    exact ⟨.box none kind none none f [], hf, rfl⟩
  | tag label _ ih =>
    obtain ⟨f, hf, rfl⟩ := ih
    exact ⟨.tag none label f [], hf, rfl⟩
  | gap width => exact ⟨.gap none width [], rfl, rfl⟩
  | newline => exact ⟨.newline none [], rfl, rfl⟩

theorem isPlain_iff_exists_form (d : Doc) : d.IsPlain ↔ ∃ f : Form, f.swaps = [] ∧ f.doc = d := by
  constructor
  · exact Doc.IsPlain.exists_form
  · rintro ⟨f, -, rfl⟩
    exact f.isPlain_doc

/-! ## Every form of a tree -/

/-- Every tree that can be written has a form, and whichever of its forms is written, it is read as that tree. If names
in it were replaced by names that do not exist, no tree comes of it: it fails for the first of them. -/
theorem forms_read (d : Doc) :
    (d.IsPlain ↔ ∃ f : Form, f.swaps = [] ∧ f.doc = d) ∧
    ∀ f : Form, f.doc = d →
      (f.swaps = [] → Doc.ofJson f.json = .ok d) ∧
      ∀ s rest, f.swaps = s :: rest → (∀ t ∈ f.swaps, t.IsUnknown) →
        Doc.ofJson f.json = .error s.cause ∧ s.cause.IsUnreadable := by
  refine ⟨isPlain_iff_exists_form d, ?_⟩
  rintro f rfl
  constructor
  · intro hnone
    rw [f.ofJson_json (by simp [hnone]), hnone]
    rfl
  · intro s rest hswaps hunknown
    rw [f.ofJson_json hunknown, hswaps]
    exact ⟨rfl, s.isUnreadable_cause⟩

/-- A text in a tag in a box in a glue: with other names for the kind of the box and for the text, it is the kind that
is not found; under its own names it is read. -/
theorem forms_read_deep :
    let f (kind text : Option String) : Form :=
      .glue none [.bare "a", .box none .vertical kind (some [.int 2]) (.tag none "t" (.string text "b" []) [.null]) []] []
    let d : Doc := .glue [.text "a", .box .vertical (.tag (.text "t") (.text "b"))]
    (f none none).swaps = [] ∧ Doc.ofJson (f none none).json = .ok d ∧
      (f (some "Pp_tbox") (some "Ppcmd_word")).swaps.length = 2 ∧
      Doc.ofJson (f (some "Pp_tbox") (some "Ppcmd_word")).json =
        .error (.unknownBox (.array [.text "Pp_tbox", .int 2])) := by
  intro f d
  have hread := (forms_read d).2
  have hunknown : ∀ t ∈ (f (some "Pp_tbox") (some "Ppcmd_word")).swaps, t.IsUnknown := by
    intro t ht
    rcases List.mem_cons.mp ht with rfl | ht
    · intro k
      cases k <;> decide
    · obtain rfl := List.mem_singleton.mp ht
      intro n
      cases n <;> decide
  exact ⟨rfl, (hread (f none none) rfl).1 rfl, rfl,
    ((hread (f (some "Pp_tbox") (some "Ppcmd_word")) rfl).2 _ _ rfl hunknown).1⟩

end Markup
end CoqConsole
