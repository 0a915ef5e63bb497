import Mathlib.Data.List.Nodup
import Mathlib.Data.List.Perm.Subperm
import Mathlib.Order.Bounds.Basic
import SqlTree.Proofs.BoundOrder
import SqlTree.Proofs.Demands
import SqlTree.Proofs.SameValue

/-!
The book of names in a run with named placeholders. A name is entered once with its value, and may come
again with an equal value. Names that the writer generates are always new. A run succeeds when the names
that the caller gave agree on their values, and a run that succeeds shows that they do.
-/
namespace SqlTree

theorem numberedName_injective : Function.Injective fun n : Nat => "p" ++ toString n := by
  have readBack : Function.LeftInverse (fun s : String => Nat.ofDigitChars 10 s.toList 0)
      fun n : Nat => toString n := by
    intro n
    simp
  intro m n same
  exact readBack.injective ((String.append_right_inj "p").mp same)

theorem Writer.isTaken_eq_false {w : Writer} {name : String} :
    w.isTaken name = false ↔ name ∉ w.reserved ∧ w.named.lookup name = none := by
  simp [Writer.isTaken]

/-- The generated name is the first of its series that is neither reserved nor entered: among one name
more than there are such, one is free. -/
theorem Writer.generatedName_first (w : Writer) (index : Nat) :
    ∃ n, index ≤ n ∧ w.generatedName index = "p" ++ toString n ∧ w.isTaken ("p" ++ toString n) = false ∧
      ∀ m, index ≤ m → m < n → w.isTaken ("p" ++ toString m) = true := by
  unfold Writer.generatedName
  dsimp only
  rw [List.find?_map]
  generalize found : (List.range' index (w.reserved.length + w.named.length + 1)).find?
    ((fun name => !w.isTaken name) ∘ fun n => "p" ++ toString n) = first
  cases first with
  | some n =>
    obtain ⟨free, within, before⟩ := List.find?_range'_eq_some.mp found
    have lower := (List.mem_range'_1.mp within).1
    refine ⟨n, lower, rfl, by simpa using free, fun m above below => ?_⟩
    simpa using before m above below
  | none =>
    have taken := List.find?_eq_none.mp found
    have distinct : ((List.range' index (w.reserved.length + w.named.length + 1)).map
        fun n => "p" ++ toString n).Nodup :=
      (List.nodup_range' 1).map numberedName_injective
    have inside : (List.range' index (w.reserved.length + w.named.length + 1)).map
        (fun n => "p" ++ toString n) ⊆ w.reserved ++ w.named.map (·.1) := by
      intro name member
      obtain ⟨n, within, rfl⟩ := List.mem_map.mp member
      have occupied : w.isTaken ("p" ++ toString n) = true := by simpa using taken n within
      by_cases reserved : "p" ++ toString n ∈ w.reserved
      · exact List.mem_append_left _ reserved
      · have entered : w.named.lookup ("p" ++ toString n) ≠ none := by
          intro new
          rw [Writer.isTaken_eq_false.mpr ⟨reserved, new⟩] at occupied
          cases occupied
        obtain ⟨value, known⟩ := Option.ne_none_iff_exists'.mp entered
        obtain ⟨before, after, book, _⟩ := List.lookup_eq_some_iff.mp known
        have listed : "p" ++ toString n ∈ w.named.map (·.1) := by simp [book]
        exact List.mem_append_right _ listed
    have counted := (List.subperm_of_subset distinct inside).length_le
    simp only [List.length_map, List.length_range', List.length_append] at counted
    omega

/-- The number of a generated name is the least from the index on whose name is not taken. -/
theorem Writer.generatedName_isLeast (w : Writer) (index : Nat) :
    ∃ n, w.generatedName index = "p" ++ toString n ∧
      IsLeast {m | index ≤ m ∧ w.isTaken ("p" ++ toString m) = false} n := by
  obtain ⟨n, above, same, free, taken⟩ := w.generatedName_first index
  refine ⟨n, same, ⟨above, free⟩, ?_⟩
  rintro m ⟨lower, other⟩
  by_contra smaller
  have before := taken m lower (Nat.lt_of_not_le smaller)
  rw [other] at before
  cases before

/-- A parameter that has a name, with its value. -/
def Param.naming? (p : Param) : Option (String × Option Literal) :=
  p.name?.map (·, p.value)

theorem Param.naming?_of_name {p : Param} {name : String} (given : p.name? = some name) :
    p.naming? = some (name, p.value) := by
  rw [Param.naming?, given]
  rfl

/-- Names that come several times come with equal values; a missing value counts as one. -/
def NamesAgree (namings : List (String × Option Literal)) : Prop :=
  ∀ a ∈ namings, ∀ b ∈ namings, a.1 = b.1 → (a.2 == b.2) = true

/-- The names on a page: those entered with their values, and those kept for the caller. -/
structure Book where
  named : List (String × Option Literal)
  reserved : List String

def Writer.book (w : Writer) : Book :=
  ⟨w.named, w.reserved⟩

/-- One parameter is entered in the book: under a name that is new, and not kept for the caller unless the
caller gave it, or again under the caller's name with an equal value. -/
inductive Book.Enters (b : Book) (p : Param) : BindParam → Book → Prop
  | opens {name : String} (given : p.name? = some name ∨ p.name? = none ∧ name ∉ b.reserved)
      (new : b.named.lookup name = none) :
      Book.Enters b p ⟨some name, p.value⟩ { b with named := b.named ++ [(name, p.value)] }
  | repeats {name : String} {bound : Option Literal} (given : p.name? = some name)
      (known : b.named.lookup name = some bound) (same : (bound == p.value) = true) :
      Book.Enters b p ⟨some name, p.value⟩ b

/-- Parameters are entered one after the other. -/
inductive Book.Run : Book → List Param → List BindParam → Book → Prop
  | nil (b : Book) : Book.Run b [] [] b
  | cons {b c d : Book} {p : Param} {entry : BindParam} {params : List Param} {entries : List BindParam}
      (first : b.Enters p entry c) (rest : Book.Run c params entries d) :
      Book.Run b (p :: params) (entry :: entries) d

/-- The names of the entries whose parameters have none. -/
def BindParam.generatedNames (params : List Param) (entries : List BindParam) : List String :=
  (params.zip entries).filterMap fun pair => if pair.1.name?.isNone then pair.2.name else none

/-- The entry has the value of the parameter and the name that the caller gave, if there is one. -/
structure Param.NamedAs (p : Param) (entry : BindParam) : Prop where
  value : entry.value = p.value
  named : entry.name.isSome = true
  given : ∀ name ∈ p.name?, entry.name = some name

namespace Book

theorem Enters.kept {b c : Book} {p : Param} {entry : BindParam} (enters : b.Enters p entry c) {name : String}
    {value : Option Literal} (known : b.named.lookup name = some value) :
    c.named.lookup name = some value := by
  cases enters with
  | opens _ _ => rw [List.lookup_append, known, Option.some_or]
  | repeats _ _ _ => exact known

theorem Enters.reserved {b c : Book} {p : Param} {entry : BindParam} (enters : b.Enters p entry c) :
    c.reserved = b.reserved := by
  cases enters <;> rfl

theorem Enters.namedAs {b c : Book} {p : Param} {entry : BindParam} (enters : b.Enters p entry c) :
    p.NamedAs entry := by
  cases enters with
  | @opens name given new =>
    refine ⟨rfl, rfl, fun other named => ?_⟩
    obtain same | ⟨none, _⟩ := given
    · exact (congrArg some (Option.some.inj (same.symm.trans named)))
    · rw [none] at named
      cases named
  | @repeats name bound given known same =>
    exact ⟨rfl, rfl, fun other named => congrArg some (Option.some.inj (given.symm.trans named))⟩

/-- An entry's name is in the book afterwards, with a value equal to the entry's. -/
theorem Enters.booked {b c : Book} {p : Param} {entry : BindParam} (enters : b.Enters p entry c) :
    ∃ name bound, entry.name = some name ∧ c.named.lookup name = some bound ∧
      (bound == entry.value) = true := by
  cases enters with
  | @opens name given new =>
    refine ⟨name, p.value, rfl, ?_, BEq.refl _⟩
    rw [List.lookup_append, new, Option.none_or]
    simp
  | @repeats name bound given known same => exact ⟨name, bound, rfl, known, same⟩

namespace Run

variable {b c d : Book} {params others : List Param} {entries more : List BindParam}

theorem append (first : b.Run params entries c) (second : c.Run others more d) :
    b.Run (params ++ others) (entries ++ more) d := by
  induction first with
  | nil => exact second
  | cons enters _ ih => exact .cons enters (ih second)

theorem single {p : Param} {entry : BindParam} (enters : b.Enters p entry c) : b.Run [p] [entry] c :=
  .cons enters (.nil c)

theorem kept (run : b.Run params entries c) {name : String} {value : Option Literal}
    (known : b.named.lookup name = some value) : c.named.lookup name = some value := by
  induction run with
  | nil => exact known
  | cons enters _ ih => exact ih (enters.kept known)

theorem namedAs (run : b.Run params entries c) : List.Forall₂ Param.NamedAs params entries := by
  induction run with
  | nil => exact .nil
  | cons enters _ ih => exact .cons enters.namedAs ih

/-- The value that is entered first under a name stays in the book, and every entry agrees with it. -/
theorem booked (run : b.Run params entries c) {entry : BindParam} (member : entry ∈ entries) :
    ∃ name bound, entry.name = some name ∧ c.named.lookup name = some bound ∧
      (bound == entry.value) = true := by
  induction run with
  | nil => cases member
  | cons enters rest ih =>
    rcases List.mem_cons.mp member with rfl | later
    · obtain ⟨name, bound, named, known, same⟩ := enters.booked
      exact ⟨name, bound, named, rest.kept known, same⟩
    · exact ih later

/-- Entries of one name have equal values. -/
theorem agree (run : b.Run params entries c) {x y : BindParam} (first : x ∈ entries) (second : y ∈ entries)
    (named : x.name = y.name) : (x.value == y.value) = true := by
  obtain ⟨name, bound, atX, known, same⟩ := run.booked first
  obtain ⟨name', bound', atY, known', same'⟩ := run.booked second
  obtain rfl : name = name' := Option.some.inj (atX.symm.trans (named.trans atY))
  obtain rfl : bound = bound' := Option.some.inj (known.symm.trans known')
  exact PartialEquivBEq.trans (PartialEquivBEq.symm same) same'

/-- Generated names differ from each other, from the names in the book before and from the caller's. -/
theorem generated (run : b.Run params entries c) :
    (BindParam.generatedNames params entries).Nodup ∧
      ∀ name ∈ BindParam.generatedNames params entries,
        name ∉ b.reserved ∧ b.named.lookup name = none := by
  induction run with
  | nil => exact ⟨.nil, nofun⟩
  | @cons b c d p entry params entries enters rest ih =>
    obtain ⟨distinct, free⟩ := ih
    -- a name that is free behind the first entry was free before it
    have before : ∀ name ∈ BindParam.generatedNames params entries,
        name ∉ b.reserved ∧ b.named.lookup name = none := by
      intro name member
      obtain ⟨unreserved, new⟩ := free name member
      rw [enters.reserved] at unreserved
      refine ⟨unreserved, ?_⟩
      cases known : b.named.lookup name with
      | none => rfl
      | some value => rw [enters.kept known] at new; cases new
    cases given : p.name? with
    | some name =>
      have same : BindParam.generatedNames (p :: params) (entry :: entries) =
          BindParam.generatedNames params entries := by
        simp [BindParam.generatedNames, given]
      rw [same]
      exact ⟨distinct, before⟩
    | none =>
      obtain ⟨name, bound, named, known, _⟩ := enters.booked
      have same : BindParam.generatedNames (p :: params) (entry :: entries) =
          name :: BindParam.generatedNames params entries := by
        simp [BindParam.generatedNames, given, named]
      have other : name ∉ BindParam.generatedNames params entries := by
        intro member
        have new := (free name member).2
        rw [known] at new
        cases new
      have own : name ∉ b.reserved ∧ b.named.lookup name = none := by
        cases enters with
        | @opens fresh origin new =>
          obtain rfl : fresh = name := Option.some.inj named
          obtain present | ⟨_, unreserved⟩ := origin
          · rw [given] at present
            cases present
          · exact ⟨unreserved, new⟩
        | repeats present _ _ =>
          rw [given] at present
          cases present
      rw [same]
      exact ⟨List.nodup_cons.mpr ⟨other, distinct⟩, List.forall_mem_cons.mpr ⟨own, before⟩⟩

end Run

/-- The book agrees with the names that the caller gave, and keeps them all. -/
structure Fits (namings : List (String × Option Literal)) (b : Book) : Prop where
  reserved : ∀ a ∈ namings, a.1 ∈ b.reserved
  named : ∀ a ∈ namings, ∀ bound, b.named.lookup a.1 = some bound → (bound == a.2) = true

/-- The book still agrees after one of the caller's parameters, or a generated name, is entered. -/
theorem Enters.fits {b c : Book} {p : Param} {entry : BindParam} {namings : List (String × Option Literal)}
    (enters : b.Enters p entry c) (agree : NamesAgree namings) (listed : ∀ a ∈ p.naming?, a ∈ namings)
    (fits : b.Fits namings) : c.Fits namings := by
  refine ⟨fun a member => enters.reserved ▸ fits.reserved a member, fun a member bound known => ?_⟩
  cases enters with
  | repeats _ _ _ => exact fits.named a member bound known
  | @opens name given new =>
    rw [List.lookup_append] at known
    cases old : b.named.lookup a.1 with
    | some value =>
      rw [old, Option.some_or] at known
      exact fits.named a member bound (old.trans known)
    | none =>
      rw [old, Option.none_or] at known
      obtain ⟨same, rfl⟩ : a.1 = name ∧ p.value = bound := by
        by_cases equal : a.1 = name
        · subst equal
          simpa using known
        · have apart : (a.1 == name) = false := by simpa using equal
          simp [List.lookup_cons, apart] at known
      obtain given | ⟨_, unreserved⟩ := given
      · exact agree (name, p.value) (listed _ (Param.naming?_of_name given)) a member same.symm
      · exact absurd (same ▸ fits.reserved a member) unreserved

end Book

namespace Writer

@[simp]
theorem book_write (w : Writer) (s : String) : (w.write s).book = w.book :=
  rfl

@[simp]
theorem book_separator (w : Writer) : w.separator.book = w.book := by
  unfold Writer.separator
  split <;> rfl

@[simp]
theorem book_openBlock (w : Writer) : w.openBlock.book = w.book := by
  unfold Writer.openBlock
  split <;> rfl

@[simp]
theorem book_closeBlock (w : Writer) (pretty : Bool) : (w.closeBlock pretty).book = w.book := by
  unfold Writer.closeBlock
  split <;> rfl

/-- The name under which a parameter is entered on a page. -/
def nameFor (w : Writer) (p : Param) : String :=
  p.name?.getD (w.generatedName (w.params.length + 1))

theorem nameFor_given {w : Writer} {p : Param} {name : String} (given : p.name? = some name) :
    w.nameFor p = name := by
  rw [nameFor, given, Option.getD_some]

/-- A parameter without a name gets one that is neither kept for the caller nor in the book. -/
theorem nameFor_generated (w : Writer) {p : Param} (unnamed : p.name? = none) :
    w.nameFor p ∉ w.reserved ∧ w.named.lookup (w.nameFor p) = none := by
  obtain ⟨n, _, same, free, _⟩ := w.generatedName_first (w.params.length + 1)
  rw [nameFor, unnamed, Option.getD_none, same]
  exact Writer.isTaken_eq_false.mp free

end Writer

namespace Context

variable {ctx : Context} (named : ctx.options.placeholder = .named)

theorem outcome_valueless (ctx : Context) {p : Param} {q : Valueless} (valueless : p.valueless? = some q)
    (w : Writer) : (ctx.bindParam p).outcome w = (.error (.unbound q), w) := by
  obtain ⟨kind, value⟩ := p
  cases value with
  | some value => cases kind <;> cases valueless
  | none => cases kind <;> cases valueless <;> rfl

include named in
/-- With named placeholders, a parameter that can be bound is entered in the book under its name. -/
theorem outcome_named {p : Param} (bindable : p.valueless? = none) (w : Writer) :
    (ctx.bindParam p).outcome w = (do
      enterName (w.nameFor p) p.value
      place ⟨some (w.nameFor p), p.value⟩ (":" ++ w.nameFor p)).outcome w := by
  cases carried : p.value with
  | some value =>
    rw [ctx.outcome_bindParam carried]
    simp only [named]
    rfl
  | none =>
    obtain ⟨kind, value⟩ := p
    obtain rfl : value = none := carried
    cases kind with
    | named name => rfl
    | ordinal index => cases bindable
    | anonymous => cases bindable

theorem bindable_of_ok (ctx : Context) {p : Param} {w v : Writer}
    (bound : (ctx.bindParam p).outcome w = (.ok (), v)) : p.valueless? = none := by
  cases valueless : p.valueless? with
  | none => rfl
  | some q =>
    rw [ctx.outcome_valueless valueless] at bound
    cases bound

include named in
/-- A parameter that is bound is entered in the book, and one entry is made. -/
theorem bindParam_enters {p : Param} {w v : Writer} (bound : (ctx.bindParam p).outcome w = (.ok (), v)) :
    ∃ entry, v.params = w.params ++ [entry] ∧ w.book.Enters p entry v.book := by
  have given : p.name? = some (w.nameFor p) ∨
      p.name? = none ∧ w.nameFor p ∉ w.reserved ∧ w.named.lookup (w.nameFor p) = none := by
    cases own : p.name? with
    | some name => exact .inl (by rw [Writer.nameFor_given own])
    | none => exact .inr ⟨rfl, w.nameFor_generated own⟩
  rw [ctx.outcome_named named (ctx.bindable_of_ok bound), Writing.outcome_bind,
    Context.outcome_enterName] at bound
  cases known : w.named.lookup (w.nameFor p) with
  | none =>
    simp only [known] at bound
    cases bound
    exact ⟨_, rfl, .opens (given.imp_right fun both => ⟨both.1, both.2.1⟩) known⟩
  | some value =>
    have own : p.name? = some (w.nameFor p) := by
      rcases given with own | ⟨_, _, new⟩
      · exact own
      · rw [known] at new
        cases new
    by_cases same : (value == p.value) = true
    · simp only [known, same, if_true] at bound
      cases bound
      exact ⟨_, rfl, .repeats own known same⟩
    · simp only [known, same] at bound
      cases bound

include named in
/-- A parameter can be bound when the book agrees with the caller's names, the parameter's among them. -/
theorem bindParam_of_fits {p : Param} (bindable : p.valueless? = none) {w : Writer}
    {namings : List (String × Option Literal)} (listed : ∀ a ∈ p.naming?, a ∈ namings)
    (fits : w.book.Fits namings) : ∃ v, (ctx.bindParam p).outcome w = (.ok (), v) := by
  rw [ctx.outcome_named named bindable, Writing.outcome_bind, Context.outcome_enterName]
  cases known : w.named.lookup (w.nameFor p) with
  | none => exact ⟨_, rfl⟩
  | some bound =>
    have own : p.name? = some (w.nameFor p) := by
      cases given : p.name? with
      | some name => rw [Writer.nameFor_given given]
      | none =>
        have new := (w.nameFor_generated given).2
        rw [known] at new
        cases new
    have same : (bound == p.value) = true :=
      fits.named _ (listed _ (Param.naming?_of_name own)) bound known
    simp only [same, if_true]
    exact ⟨_, rfl⟩

end Context

namespace Doc

variable {ctx : Context} (bind : ctx.options.mode = .bind)

include bind in
/-- What has been written met no obstacle. -/
theorem Writes.clear {d : Doc} {w v : Writer} (writes : d.Writes ctx w v) : d.obstacle? ctx = none := by
  induction d generalizing w v with
  | empty | text | gap | note => rfl
  | append first second left right =>
    obtain ⟨u, atFirst, atSecond⟩ := Doc.Writes.append_iff.mp writes
    rw [show (Doc.append first second).obstacle? ctx = _ from Doc.obstacle?_append ctx first second,
      left atFirst, right atSecond]
    rfl
  | block body ih =>
    obtain ⟨u, atBody, _⟩ := Doc.Writes.block_iff.mp writes
    exact ih atBody
  | require construct =>
    have supported := (Doc.Writes.require_iff.mp writes).1
    simp [Doc.obstacle?, Doc.demands, Demand.unmet?, supported]
  | fail error => exact absurd writes Doc.Writes.not_fail
  | param p inline =>
    have bindable := ctx.bindable_of_ok ((Doc.Writes.param_bind_iff bind).mp writes)
    simp [Doc.obstacle?, Doc.demands, bind, bindable]
  | afterMinus body ih =>
    obtain ⟨u, atBody, _⟩ := Doc.Writes.afterMinus_iff.mp writes
    exact ih atBody

variable (named : ctx.options.placeholder = .named)

include bind named in
/-- Writing a document enters its parameters one after the other. -/
theorem Writes.run {d : Doc} {w v : Writer} (writes : d.Writes ctx w v) :
    ∃ entries, v.params = w.params ++ entries ∧ w.book.Run d.params entries v.book := by
  induction d generalizing w v with
  | empty =>
    obtain rfl := Doc.Writes.empty_iff.mp writes
    exact ⟨[], (List.append_nil _).symm, .nil _⟩
  | text s =>
    obtain rfl := Doc.Writes.text_iff.mp writes
    exact ⟨[], (List.append_nil _).symm, .nil _⟩
  | gap =>
    obtain rfl := Doc.Writes.gap_iff.mp writes
    refine ⟨[], by simp, ?_⟩
    rw [Writer.book_separator]
    exact .nil _
  | append first second left right =>
    obtain ⟨u, atFirst, atSecond⟩ := Doc.Writes.append_iff.mp writes
    obtain ⟨before, grown, run⟩ := left atFirst
    obtain ⟨after, grown', run'⟩ := right atSecond
    exact ⟨before ++ after, by rw [grown', grown, List.append_assoc], run.append run'⟩
  | block body ih =>
    obtain ⟨u, atBody, rfl⟩ := Doc.Writes.block_iff.mp writes
    obtain ⟨entries, grown, run⟩ := ih atBody
    rw [Writer.book_openBlock] at run
    refine ⟨entries, by simpa using grown, ?_⟩
    rw [Writer.book_closeBlock]
    exact run
  | require construct =>
    obtain ⟨_, rfl⟩ := Doc.Writes.require_iff.mp writes
    exact ⟨[], (List.append_nil _).symm, .nil _⟩
  | fail error => exact absurd writes Doc.Writes.not_fail
  | note event =>
    obtain rfl := Doc.Writes.note_iff.mp writes
    exact ⟨[], (List.append_nil _).symm, .nil _⟩
  | param p inline =>
    have bound := (Doc.Writes.param_bind_iff bind).mp writes
    obtain ⟨entry, grown, enters⟩ := Context.bindParam_enters named bound
    exact ⟨[entry], grown, .single enters⟩
  | afterMinus body ih =>
    obtain ⟨u, atBody, rfl⟩ := Doc.Writes.afterMinus_iff.mp writes
    obtain ⟨entries, grown, run⟩ := ih atBody
    exact ⟨entries, grown, run⟩

include bind named in
/-- A document without obstacle can be written when the caller's names agree and the book with them. -/
theorem writes_of_fits {namings : List (String × Option Literal)} (agree : NamesAgree namings) {d : Doc}
    (listed : ∀ p ∈ d.params, ∀ a ∈ p.naming?, a ∈ namings) (clear : d.obstacle? ctx = none) {w : Writer}
    (fits : w.book.Fits namings) : ∃ v, d.Writes ctx w v ∧ v.book.Fits namings := by
  induction d generalizing w with
  | empty => exact ⟨w, Doc.Writes.empty_iff.mpr rfl, fits⟩
  | text s => exact ⟨w.write s, Doc.Writes.text_iff.mpr rfl, fits⟩
  | gap => exact ⟨w.separator, Doc.Writes.gap_iff.mpr rfl, w.book_separator ▸ fits⟩
  | append first second left right =>
    change (first ++ second).obstacle? ctx = none at clear
    rw [Doc.obstacle?_append, Option.or_eq_none_iff] at clear
    obtain ⟨listedLeft, listedRight⟩ := List.forall_mem_append.mp listed
    obtain ⟨u, atFirst, onward⟩ := left listedLeft clear.1 fits
    obtain ⟨v, atSecond, after⟩ := right listedRight clear.2 onward
    exact ⟨v, Doc.Writes.append_iff.mpr ⟨u, atFirst, atSecond⟩, after⟩
  | block body ih =>
    obtain ⟨u, atBody, after⟩ := ih listed clear (w := w.openBlock) (w.book_openBlock ▸ fits)
    exact ⟨_, Doc.Writes.block_iff.mpr ⟨u, atBody, rfl⟩, u.book_closeBlock _ ▸ after⟩
  | require construct =>
    have supported : ctx.dialect.capabilities.supports construct.feature = true := by
      by_contra lacking
      simp [Doc.obstacle?, Doc.demands, Demand.unmet?, lacking] at clear
    exact ⟨w, Doc.Writes.require_iff.mpr ⟨supported, rfl⟩, fits⟩
  | fail error => cases clear
  | note event => exact ⟨w.note event, Doc.Writes.note_iff.mpr rfl, fits⟩
  | param p inline =>
    have bindable : p.valueless? = none := by
      cases valueless : p.valueless? with
      | none => rfl
      | some q => simp [Doc.obstacle?, Doc.demands, bind, valueless, Demand.unmet?] at clear
    have own := List.forall_mem_singleton.mp listed
    obtain ⟨v, bound⟩ := Context.bindParam_of_fits named bindable own fits
    obtain ⟨entry, _, enters⟩ := Context.bindParam_enters named bound
    exact ⟨v, (Doc.Writes.param_bind_iff bind).mpr bound, enters.fits agree own fits⟩
  | afterMinus body ih =>
    obtain ⟨u, atBody, after⟩ := ih listed clear (w := { w with text := "" }) fits
    exact ⟨_, Doc.Writes.afterMinus_iff.mpr ⟨u, atBody, rfl⟩, after⟩

end Doc

end SqlTree
