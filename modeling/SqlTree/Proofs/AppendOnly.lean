import Mathlib.Data.String.Basic
import SqlTree.Proofs.Fragments
import SqlTree.Proofs.NameBook

namespace SqlTree

/-- What is added to a page. -/
structure Addition where
  text : String
  params : List BindParam
  named : List (String × Option Literal)
  log : List Event

namespace Addition

def none : Addition :=
  ⟨"", [], [], []⟩

def ofText (s : String) : Addition :=
  { none with text := s }

instance : Append Addition where
  append a b := ⟨a.text ++ b.text, a.params ++ b.params, a.named ++ b.named, a.log ++ b.log⟩

/-- With text before and behind it. -/
def framed (before after : String) (a : Addition) : Addition :=
  { a with text := before ++ a.text ++ after }

end Addition

namespace Writer

/-- A page with something added to it. -/
def plus (w : Writer) (a : Addition) : Writer :=
  { w with
    text := w.text ++ a.text
    params := w.params ++ a.params
    named := w.named ++ a.named
    log := w.log ++ a.log }

@[simp]
theorem plus_none (w : Writer) : w.plus .none = w := by
  simp [plus, Addition.none]

theorem plus_plus (w : Writer) (a b : Addition) : (w.plus a).plus b = w.plus (a ++ b) := by
  change Writer.mk _ _ _ _ _ _ _ = Writer.mk (w.text ++ (a.text ++ b.text)) (w.params ++ (a.params ++ b.params))
    (w.named ++ (a.named ++ b.named)) _ _ _ (w.log ++ (a.log ++ b.log))
  simp only [plus, String.append_assoc, List.append_assoc]

@[simp]
theorem plus_ofText (w : Writer) (s : String) : w.plus (.ofText s) = w.write s := by
  simp [plus, Addition.ofText, Addition.none, write]

/-- What stands in the book of names stays there. -/
theorem lookup_plus {w : Writer} {name : String} {value : Option Literal}
    (known : w.named.lookup name = some value) (a : Addition) : (w.plus a).named.lookup name = some value := by
  change (w.named ++ a.named).lookup name = _
  rw [List.lookup_append, known, Option.some_or]

/-- A block that is closed has brought its body and the text around it. -/
theorem closeBlock_plus (w : Writer) (a : Addition) :
    (w.openBlock.plus a).closeBlock w.pretty = w.plus (a.framed w.layout.opening w.layout.closing) := by
  cases pretty : w.pretty with
  | true =>
    simp only [closeBlock, openBlock, pretty, if_true, Addition.framed, Layout.opening, Layout.closing, layout]
    simp only [plus, write, deeper, shallower, newline, Layout.inner, Layout.newline, if_true,
      Nat.add_sub_cancel, String.append_assoc]
  | false =>
    simp only [closeBlock, openBlock, pretty, Addition.framed, Layout.opening, Layout.closing, layout,
      Bool.false_eq_true, if_false]
    simp only [plus, write, String.append_assoc]

/-- A block whose body failed has brought what was written before the failure, and the depth is the old one. -/
theorem leaveBlock_plus (w : Writer) (a : Addition) :
    (w.openBlock.plus a).leaveBlock w.pretty = w.plus (a.framed w.layout.opening "") := by
  cases pretty : w.pretty with
  | true =>
    simp only [leaveBlock, openBlock, pretty, if_true, Addition.framed, Layout.opening, layout]
    simp only [plus, write, deeper, shallower, newline, Layout.inner, Layout.newline, if_true,
      Nat.add_sub_cancel, String.append_assoc, String.append_empty]
  | false =>
    simp only [leaveBlock, openBlock, pretty, Addition.framed, Layout.opening, layout, Bool.false_eq_true,
      if_false]
    simp only [plus, write, String.append_assoc, String.append_empty]

/-- The byte at which a text ends is where the next character goes. -/
theorem insertAt_size (c : Char) (before after : List Char) :
    insertAt c (String.utf8Len before) (before ++ after) = before ++ c :: after := by
  induction before with
  | nil => simp [insertAt]
  | cons d before ih =>
    have size : String.utf8Len (d :: before) = String.utf8Len before + d.utf8Size := String.utf8Len_cons ..
    have some := d.utf8Size_pos
    obtain ⟨n, sum⟩ : ∃ n, String.utf8Len (d :: before) = n + 1 := Nat.exists_eq_add_one.mpr (by omega)
    have rest : n + 1 - d.utf8Size = String.utf8Len before := by omega
    rw [sum, List.cons_append, insertAt, rest, ih, List.cons_append]

/-- Wrapping from the size that the text had puts all that was written since in parentheses. -/
theorem wrapFrom_write (w : Writer) (s : String) :
    (w.write s).wrapFrom w.text.utf8ByteSize = w.write ("(" ++ s ++ ")") := by
  have size : w.text.utf8ByteSize = String.utf8Len w.text.toList := by
    rw [← String.utf8ByteSize_ofList, String.ofList_toList]
  have chars : String.ofList (insertAt '(' w.text.utf8ByteSize (w.text ++ s).toList ++ [')']) =
      w.text ++ ("(" ++ s ++ ")") := by
    rw [size, String.toList_append, insertAt_size]
    apply String.toList_injective
    simp
  exact congrArg (fun text => { w with text := text }) chars

/-- Wrapping changes the text only. -/
theorem wrapFrom_plus (w : Writer) (a : Addition) :
    (w.plus a).wrapFrom w.text.utf8ByteSize = w.plus (a.framed "(" ")") :=
  congrArg (fun text => { w.plus a with text := text })
    (congrArg Writer.text (w.wrapFrom_write a.text))

/-- Pages that a step cannot tell apart: they have as many parameters, the same names with the same values, the
same names kept for the caller, and the same layout. -/
structure Peer (w u : Writer) : Prop where
  count : w.params.length = u.params.length
  named : ∀ name, w.named.lookup name = u.named.lookup name
  reserved : ∀ name, name ∈ w.reserved ↔ name ∈ u.reserved
  pretty : w.pretty = u.pretty
  depth : w.depth = u.depth

namespace Peer

variable {w u : Writer}

theorem refl (w : Writer) : w.Peer w :=
  ⟨rfl, fun _ => rfl, fun _ => Iff.rfl, rfl, rfl⟩

theorem layout (peers : w.Peer u) : w.layout = u.layout := by
  rw [Writer.layout, Writer.layout, peers.pretty, peers.depth]

theorem plus (peers : w.Peer u) (a : Addition) : (w.plus a).Peer (u.plus a) where
  count := by
    have count := peers.count
    simp only [Writer.plus, List.length_append]
    omega
  named name := by
    have known := peers.named name
    simp only [Writer.plus, List.lookup_append, known]
  reserved := peers.reserved
  pretty := peers.pretty
  depth := peers.depth

theorem openBlock (peers : w.Peer u) : w.openBlock.Peer u.openBlock := by
  have pretty := peers.pretty
  have deeper := congrArg (· + 1) peers.depth
  unfold Writer.openBlock
  rw [← pretty]
  split
  · exact ⟨peers.count, peers.named, peers.reserved, pretty, deeper⟩
  · exact ⟨peers.count, peers.named, peers.reserved, pretty, peers.depth⟩

/-- A name is taken on both pages or on neither. -/
theorem isTaken (peers : w.Peer u) (name : String) : w.isTaken name = u.isTaken name := by
  have reserved : w.reserved.contains name = u.reserved.contains name := by
    rw [Bool.eq_iff_iff, List.contains_iff_mem, List.contains_iff_mem]
    exact peers.reserved name
  rw [Writer.isTaken, Writer.isTaken, reserved, peers.named]

/-- The search for a new name ends at the same name, however long it may be on each page. -/
theorem generatedName (peers : w.Peer u) (index : Nat) : w.generatedName index = u.generatedName index := by
  obtain ⟨m, atW, least⟩ := w.generatedName_isLeast index
  obtain ⟨n, atU, least'⟩ := u.generatedName_isLeast index
  simp only [peers.isTaken] at least
  have same : m = n := least.unique least'
  rw [atW, atU, same]

end Peer

end Writer

/-- Runs a step where the page ends, and wraps what it has written there when that begins with a minus sign. -/
def Writing.guardedInPlace (body : Writing Error Unit) : Writing Error Unit := do
  let before ← get
  body
  let after ← get
  if Text.startsMinus (String.ofList (after.text.toList.drop before.text.length)) then
    set (after.wrapFrom before.text.utf8ByteSize)

theorem Writing.outcome_guardedInPlace (x : Writing Error Unit) (w : Writer) :
    (Writing.guardedInPlace x).outcome w = match x.outcome w with
      | (.ok (), v) =>
        (.ok (), if Text.startsMinus (String.ofList (v.text.toList.drop w.text.length)) then
          v.wrapFrom w.text.utf8ByteSize else v)
      | (.error e, v) => (.error e, v) := by
  simp only [Writing.guardedInPlace, Writing.outcome_bind, Writing.outcome_get]
  rcases x.outcome w with ⟨_ | _, v⟩
  · rfl
  · dsimp only
    split <;> rfl

/-- A step that adds the same, and ends in the same way, on all pages that it cannot tell apart. -/
def Writing.Additive (x : Writing Error Unit) : Prop :=
  ∀ w : Writer, ∃ (result : Except Error Unit) (a : Addition), ∀ u : Writer, w.Peer u →
    x.outcome u = (result, u.plus a)

namespace Writing.Additive

variable {x : Writing Error Unit}

theorem pure_unit : Writing.Additive (pure ()) :=
  fun _ => ⟨.ok (), .none, fun u _ => by rw [Writing.outcome_pure, u.plus_none]⟩

theorem throw (e : Error) : Writing.Additive (throw e) :=
  fun _ => ⟨.error e, .none, fun u _ => by rw [Writing.outcome_throw, u.plus_none]⟩

theorem put (s : String) : Writing.Additive (Writing.put s) :=
  fun _ => ⟨.ok (), .ofText s, fun u _ => by rw [Writing.outcome_put, u.plus_ofText]⟩

theorem separator : Writing.Additive (modify (·.separator)) := by
  refine fun w => ⟨.ok (), .ofText w.layout.separator, fun u peers => ?_⟩
  rw [Writing.outcome_modify, u.plus_ofText, u.separator_eq, peers.layout]

theorem note (event : Event) : Writing.Additive (modify (·.note event)) := by
  refine fun _ => ⟨.ok (), { Addition.none with log := [event] }, fun u _ => ?_⟩
  simp [Writing.outcome_modify, Writer.plus, Addition.none, Writer.note]

theorem bind {f : Unit → Writing Error Unit} (first : x.Additive) (second : (f ()).Additive) :
    Writing.Additive (x >>= f) := by
  intro w
  obtain ⟨result, a, atFirst⟩ := first w
  cases result with
  | error e =>
    refine ⟨.error e, a, fun u peers => ?_⟩
    rw [Writing.outcome_bind, atFirst u peers]
  | ok =>
    obtain ⟨result, b, atSecond⟩ := second (w.plus a)
    refine ⟨result, a ++ b, fun u peers => ?_⟩
    rw [Writing.outcome_bind, atFirst u peers, ← u.plus_plus]
    exact atSecond (u.plus a) (peers.plus a)

theorem nested (body : x.Additive) : Writing.Additive (Writing.nested x) := by
  intro w
  obtain ⟨result, a, atBody⟩ := body w.openBlock
  cases result with
  | error e =>
    refine ⟨.error e, a.framed w.layout.opening "", fun u peers => ?_⟩
    rw [Writing.outcome_nested, atBody _ peers.openBlock, peers.layout, ← u.leaveBlock_plus]
  | ok =>
    refine ⟨.ok (), a.framed w.layout.opening w.layout.closing, fun u peers => ?_⟩
    rw [Writing.outcome_nested, atBody _ peers.openBlock, peers.layout, ← u.closeBlock_plus]

/-- What is captured is written on a page without text in any case. -/
theorem captured (change : String → String) (body : x.Additive) :
    Writing.Additive (Writing.captured change x) := by
  intro w
  obtain ⟨result, a, atBody⟩ := body { w with text := "" }
  have alone : ∀ {u : Writer}, w.Peer u →
      x.outcome { u with text := "" } = (result, Writer.plus { u with text := "" } a) :=
    fun peers => atBody _ ⟨peers.count, peers.named, peers.reserved, peers.pretty, peers.depth⟩
  cases result with
  | error e =>
    refine ⟨.error e, a, fun u peers => ?_⟩
    rw [Writing.outcome_captured, alone peers]
    simp only [Writer.plus, String.empty_append]
  | ok =>
    refine ⟨.ok (), { a with text := change a.text }, fun u peers => ?_⟩
    rw [Writing.outcome_captured, alone peers]
    simp only [Writer.plus, String.empty_append]

/-- A step that only adds can as well write in place, and what it has added is wrapped there when it begins with
a minus sign. -/
theorem guardedInPlace_eq (additive : x.Additive) :
    Writing.guardedInPlace x = Writing.captured Doc.guardMinus x := by
  refine funext fun w => ?_
  change (Writing.guardedInPlace x).outcome w = (Writing.captured Doc.guardMinus x).outcome w
  rw [Writing.outcome_guardedInPlace]
  obtain ⟨result, a, same⟩ := additive w
  have inPlace : x.outcome w = (result, w.plus a) := same w (.refl w)
  have alone : x.outcome { w with text := "" } = (result, Writer.plus { w with text := "" } a) :=
    same _ ⟨rfl, fun _ => rfl, fun _ => Iff.rfl, rfl, rfl⟩
  have added : String.ofList ((w.plus a).text.toList.drop w.text.length) = a.text := by
    change String.ofList ((w.text ++ a.text).toList.drop w.text.length) = a.text
    rw [String.toList_append, ← String.length_toList, List.drop_left, String.ofList_toList]
  rw [Writing.outcome_captured, alone, inPlace]
  cases result with
  | error e => simp only [Writer.plus, String.empty_append]
  | ok =>
    dsimp only
    rw [added, Writer.wrapFrom_plus]
    by_cases minus : Text.startsMinus a.text = true
    · simp only [Writer.plus, Addition.framed, String.empty_append, Text.guardMinus_eq, minus, if_true]
    · simp only [Writer.plus, String.empty_append, Text.guardMinus_eq, minus, if_false, Bool.false_eq_true]

theorem place (entry : BindParam) (shown : String) : Writing.Additive (Context.place entry shown) := by
  refine fun _ => ⟨.ok (), ⟨shown, [entry], [], []⟩, fun u _ => ?_⟩
  simp [Context.place, Writing.outcome_modify, Writer.plus, Writer.pushParam, Writer.write]

/-- Entering a name looks at the book of names only. -/
theorem enterName (name : String) (value : Option Literal) :
    Writing.Additive (Context.enterName name value) := by
  intro w
  cases known : w.named.lookup name with
  | none =>
    refine ⟨.ok (), { Addition.none with named := [(name, value)] }, fun u peers => ?_⟩
    have new : u.named.lookup name = none := (peers.named name).symm.trans known
    rw [Context.outcome_enterName, new]
    simp [Writer.plus, Addition.none]
  | some bound =>
    have again : ∀ {u : Writer}, w.Peer u → u.named.lookup name = some bound :=
      fun peers => (peers.named name).symm.trans known
    by_cases same : (bound == value) = true
    · refine ⟨.ok (), .none, fun u peers => ?_⟩
      rw [Context.outcome_enterName, again peers, u.plus_none]
      exact if_pos same
    · refine ⟨.error (.invalid (.nameConflict name)), .none, fun u peers => ?_⟩
      rw [Context.outcome_enterName, again peers, u.plus_none]
      exact if_neg same

end Writing.Additive

/-- Binding a parameter looks at the number of parameters and at the names. -/
theorem Context.bindParam_additive (ctx : Context) (p : Param) : Writing.Additive (ctx.bindParam p) := by
  cases carried : p.value with
  | none =>
    unfold Context.bindParam
    rw [carried]
    cases p.kind with
    | named name => exact .bind (.enterName name none) (.place _ _)
    | ordinal index => exact .throw _
    | anonymous => exact .throw _
  | some value =>
    intro w
    -- on all these pages the parameter has the same number and gets the same name
    let name := p.name?.getD (w.generatedName (w.params.length + 1))
    have count : ∀ {u : Writer}, w.Peer u → u.params.length = w.params.length := fun peers => peers.count.symm
    have shown : ∀ {u : Writer}, w.Peer u → p.name?.getD (u.generatedName (w.params.length + 1)) = name :=
      fun peers => by rw [← peers.generatedName]
    cases choice : ctx.options.placeholder with
    | positional =>
      obtain ⟨result, a, same⟩ := Writing.Additive.place ⟨p.name?, some value⟩ "?" w
      refine ⟨result, a, fun u peers => ?_⟩
      rw [ctx.outcome_bindParam carried, choice]
      exact same u peers
    | ordinal =>
      obtain ⟨result, a, same⟩ :=
        Writing.Additive.place ⟨p.name?, some value⟩ ("$" ++ toString (w.params.length + 1)) w
      refine ⟨result, a, fun u peers => ?_⟩
      rw [ctx.outcome_bindParam carried, choice, count peers]
      exact same u peers
    | named =>
      have both : Writing.Additive (do
          enterName name (some value)
          place ⟨some name, some value⟩ (":" ++ name)) := .bind (.enterName _ _) (.place _ _)
      obtain ⟨result, a, same⟩ := both w
      refine ⟨result, a, fun u peers => ?_⟩
      rw [ctx.outcome_bindParam carried, choice, count peers]
      simp only [shown peers]
      exact same u peers

/-- Every document adds the same to all pages that look the same to it. -/
theorem Doc.write_additive (ctx : Context) (d : Doc) : Writing.Additive (d.write ctx) := by
  induction d with
  | empty => exact .pure_unit
  | text s => exact .put s
  | gap => exact .separator
  | append _ _ first second => exact .bind first second
  | block _ body => exact .nested body
  | require construct =>
    unfold Doc.write
    split
    · exact .pure_unit
    · exact .throw _
  | fail error => exact .throw error
  | note event => exact .note event
  | param p _ inline =>
    unfold Doc.write
    split
    · exact ctx.bindParam_additive p
    · exact inline
  | afterMinus _ body => exact .captured _ body

/-- Writes a document where the page ends: what follows a minus sign is wrapped after it has been written. -/
def Doc.writeInPlace (ctx : Context) : Doc → Writing Error Unit
  | .append first second => do
    first.writeInPlace ctx
    second.writeInPlace ctx
  | .block body => Writing.nested (body.writeInPlace ctx)
  | .param p inline => if ctx.options.mode = .bind then ctx.bindParam p else inline.writeInPlace ctx
  | .afterMinus body => Writing.guardedInPlace (body.writeInPlace ctx)
  | d => d.write ctx

/-- Writing in place comes to the same page and the same result, in the middle of a document, too. -/
theorem Doc.writeInPlace_eq (ctx : Context) (d : Doc) : d.writeInPlace ctx = d.write ctx := by
  induction d with
  | empty | text | gap | require | fail | note => rfl
  | append first second atFirst atSecond => rw [writeInPlace, atFirst, atSecond, write]
  | block body ih => rw [writeInPlace, ih, write]
  | param p inline ih => rw [writeInPlace, ih, write]
  | afterMinus body ih => rw [writeInPlace, ih, (body.write_additive ctx).guardedInPlace_eq, write]

/-- Rendering a node only appends, whether it succeeds or fails: the text and the parameters that are there stay
in front, every name in the book keeps its value, and the layout and the names kept for the caller are the old
ones. What is appended and how the rendering ends are the same on every page with as many parameters, the same
names and the same layout, whatever text stands on it. -/
theorem Tree.write_appends {k : Kind} (t : Tree k) (ctx : Context) (w : Writer) :
    ∃ (result : Except Error Unit) (v : Writer) (text : String) (params : List BindParam),
      (t.write ctx).outcome w = (result, v) ∧
      (v.text = w.text ++ text ∧ v.params = w.params ++ params) ∧
      (v.depth = w.depth ∧ v.pretty = w.pretty ∧ v.reserved = w.reserved) ∧
      (∀ name value, w.named.lookup name = some value → v.named.lookup name = some value) ∧
      ∀ u : Writer, w.Peer u → ∃ v' : Writer, (t.write ctx).outcome u = (result, v') ∧
        v'.text = u.text ++ text ∧ v'.params = u.params ++ params := by
  obtain ⟨result, a, same⟩ := (t.doc ctx.dialect.toStyle).write_additive ctx w
  have own := same w (.refl w)
  refine ⟨result, w.plus a, a.text, a.params, own, ⟨rfl, rfl⟩, ⟨rfl, rfl, rfl⟩, ?_, fun u peers => ?_⟩
  · intro name value known
    exact Writer.lookup_plus known a
  · exact ⟨u.plus a, same u peers, rfl, rfl⟩

/-- A sum on two pages with the same names in another order: the value gets the same new name. The minus sign at
the end of the first page does not count, and the negative number is put in parentheses behind its own. -/
theorem Tree.write_appends_negated :
    let t : Expr := .of .arithmetic (.node (.arithmetic .add)
      (.one (Expr.of .negate (.node .negate (.one (Expr.literal (.integer (-5))) .nil)))
        (.one (Expr.param ⟨.anonymous, some (.integer 7)⟩) .nil)))
    let ctx : Context := ⟨.standard, .bind .named⟩
    let w : Writer := ⟨"SELECT -", [⟨some "a", none⟩, ⟨some "b", none⟩], [("a", none), ("b", none)],
      ["p3", "a", "b"], false, 0, []⟩
    let u : Writer := ⟨"", [⟨some "b", none⟩, ⟨some "b", none⟩], [("b", none), ("a", none)],
      ["a", "b", "p3", "b"], false, 0, []⟩
    w.Peer u ∧ ∃ v v' : Writer,
      (t.write ctx).outcome w = (.ok (), v) ∧ v.text = "SELECT --(-5) + :p4" ∧
      (t.write ctx).outcome u = (.ok (), v') ∧ v'.text = "-(-5) + :p4" := by
  intro t ctx w u
  have peers : w.Peer u := by
    refine ⟨rfl, fun name => ?_, fun name => ?_, rfl, rfl⟩
    · by_cases first : name = "a"
      · simp [w, u, first, List.lookup_cons]
      · by_cases second : name = "b"
        · simp [w, u, second, List.lookup_cons]
        · have apart : (name == "a") = false ∧ (name == "b") = false := by simp [first, second]
          simp [w, u, apart.1, apart.2, List.lookup_cons]
    · simp only [w, u, List.mem_cons, List.not_mem_nil, or_false]
      grind
  obtain ⟨result, v, text, params, written, ⟨shown, _⟩, _, _, same⟩ := Tree.write_appends t ctx w
  obtain ⟨v', written', shown', _⟩ := same u peers
  have evaluated : ((t.write ctx).outcome w).1 = .ok () ∧
      ((t.write ctx).outcome w).2.text = "SELECT -" ++ "-(-5) + :p4" := by
    simp only [t, ctx, w]
    exact ⟨rfl, rfl⟩
  rw [written] at evaluated
  obtain ⟨succeeds, whole⟩ := evaluated
  obtain rfl : result = .ok () := succeeds
  have added : text = "-(-5) + :p4" := (String.append_right_inj "SELECT -").mp (shown.symm.trans whole)
  exact ⟨peers, v, v', written, whole, written', by rw [shown', added]; rfl⟩

namespace Writer

/-- The page with another text and other events on it. -/
def behind (w : Writer) (text : String) (log : List Event) : Writer :=
  { w with text := text, log := log }

theorem behind_write (w : Writer) (s text : String) (log : List Event) :
    (w.behind text log).write s = (w.write s).behind (text ++ s) log :=
  rfl

theorem behind_peer (w : Writer) (text : String) (log : List Event) : w.Peer (w.behind text log) :=
  ⟨rfl, fun _ => rfl, fun _ => Iff.rfl, rfl, rfl⟩

end Writer

/-- A document has been written with a text and events of its own, and is written with the same on a page
that differs in what stands before it. -/
structure Doc.Appended (ctx : Context) (d : Doc) (w v : Writer) (s : String) (events : List Event) : Prop where
  text : v.text = w.text ++ s
  log : v.log = w.log ++ events
  layout : v.layout = w.layout
  anywhere : ∀ before past, d.Writes ctx (w.behind before past) (v.behind (before ++ s) (past ++ events))

variable {ctx : Context}

/-- Every document that is written is written with the same text behind any other. -/
theorem Doc.Writes.appended {d : Doc} {w v : Writer} (writes : d.Writes ctx w v) :
    ∃ s events, d.Appended ctx w v s events := by
  obtain ⟨result, a, same⟩ := d.write_additive ctx w
  have written := (same w (.refl w)).symm.trans writes
  obtain ⟨rfl, rfl⟩ := Prod.mk.inj written
  exact ⟨a.text, a.log, rfl, rfl, rfl, fun before past => same _ (w.behind_peer before past)⟩

/-- On a page that differs in what stands before, the same document is written with the same text. -/
theorem Doc.Appended.eq_of_behind {d : Doc} {w v u : Writer} {s : String} {events : List Event}
    (appended : d.Appended ctx w v s events) (before : String) (past : List Event)
    (writes : d.Writes ctx (w.behind before past) u) : u = v.behind (before ++ s) (past ++ events) := by
  have same := (appended.anywhere before past).symm.trans writes
  exact (Prod.mk.inj same).2.symm

end SqlTree
