import Costing.Proofs.Formula.Dependence

/-! # The names that decide a formula

`Tree.reads` lists the names in a tree together with the bases of those with a point.  These are
all that the evaluation of the tree looks up in a scope: `outcome_decided_by_names` says that a
formula has no number where one of its names has none, and that scopes which agree on what it reads
bring it to the same end.  The body of a shared function reads only its parameters, so nothing else
that stands in the scope of a call gets into it. -/

namespace Costing.Formula

/-- The names in a tree, and the bases of those with a point. -/
def Tree.reads (t : Tree) : List String := t.names.flatMap fun n => [n, (splitName n).1]

namespace Scope

/-- The scope in which a name has a value, whatever it had before. -/
def withValue (s : Scope) (name : String) (value : Tagged) : Scope :=
  { s with values := s.values.insert name value }

/-- The values of both scopes agree on a name, also where one of them has none. -/
def SameValue (s s' : Scope) (name : String) : Prop := s.values.get? name = s'.values.get? name

theorem sameBook_withValue (s : Scope) (name : String) (value : Tagged) :
    (s.withValue name value).SameBook s := ⟨rfl, rfl⟩

theorem sameValue_withValue {s : Scope} {name other : String} (apart : other ≠ name)
    (value : Tagged) : (s.withValue name value).SameValue s other := by
  rw [SameValue, withValue, Table.get?_insert, if_neg fun same => apart same.symm]

end Scope

/-- What a tree reads decides what its names stand for. -/
theorem resolve_of_sameValue {s s' : Scope} (same : s.SameBook s') {t : Tree}
    (agree : ∀ n ∈ t.reads, s.SameValue s' n) {n : String} (member : .name n ∈ t.nodes) :
    s.resolve n = s'.resolve n := by
  have read {m : String} (here : m ∈ [n, (splitName n).1]) : s.SameValue s' m :=
    agree m (List.mem_flatMap.mpr ⟨n, Tree.mem_names.mpr member, here⟩)
  exact s.resolve_congr same (read (.head _)) (read (.tail _ (.head _)))

/-- Where one of the names that a formula refers to has no number, the formula has none.  Two scopes
of one price book, as many bodies open in both, that agree on what the formula reads bring it to the
same end: the same number, or the same fault with the same wording and subject.  So a value that the
formula does not read, a broken link among them, changes nothing, whatever shared functions are
called. -/
theorem outcome_decided_by_names {formula : String} {t : Tree}
    (parsed : Tree.parse formula = .ok t) :
    (∀ (s : Scope), ∀ n ∈ t.names, (∀ y, s.resolve n ≠ .ok y) →
      ∀ x, evaluate s formula ≠ .value x) ∧
    (∀ s s' : Scope, s.SameBook s' → (∀ n ∈ t.reads, s.SameValue s' n) →
      evaluate s formula = evaluate s' formula) ∧
    ∀ (s : Scope) (name : String) (value : Tagged), name ∉ t.reads →
      evaluate (s.withValue name value) formula = evaluate s formula := by
  have decided (s s' : Scope) (same : s.SameBook s') (agree : ∀ n ∈ t.reads, s.SameValue s' n) :
      evaluate s formula = evaluate s' formula := by
    refine evaluate_congr same fun t' parsed' n member => ?_
    obtain rfl := Except.ok.inj (parsed.symm.trans parsed')
    exact resolve_of_sameValue same agree member
  refine ⟨fun s n member unresolved x value => ?_, decided, fun s name value unread => ?_⟩
  · obtain ⟨t', parsed', resolved⟩ :=
      resolve_of_number? (congrArg Outcome.number? value : _ = some x)
    obtain rfl := Except.ok.inj (parsed.symm.trans parsed')
    obtain ⟨y, number⟩ := resolved n (Tree.mem_names.mp member)
    exact unresolved y number
  · refine decided _ _ (s.sameBook_withValue name value) fun n member => ?_
    exact Scope.sameValue_withValue (fun same : n = name => unread (same ▸ member)) value

/-- A price book with one function, whose parameter is called `n`. -/
def doublingBook : Pricebook :=
  .ofLists [] []
    [{ id := none, name := ⟨"doubled", by decide⟩, description := none, category := none,
       parameters := [⟨⟨"n", by decide⟩, "", none, none, true⟩], formula := "2 * n",
       distinct := by decide +kernel }]

def depthScope : Scope := .ofInputs doublingBook [] (.ofList [("depth", .given (.number 3))])

/-- A broken link under the name of a parameter does not get into the body of the function, and
without the value that is read there is no number. -/
theorem outcome_decided_by_names_doubling :
    evaluate (depthScope.withValue "n" (.broken .cycle .blank)) "doubled(depth) + pi" =
        evaluate depthScope "doubled(depth) + pi" ∧
      ∀ x, evaluate (depthScope.withValue "depth" .missing) "doubled(depth) + pi" ≠ .value x := by
  have found : ((Tree.parse "doubled(depth) + pi").map fun t =>
      t.names == ["depth", "pi"]).toOption = some true := by decide +kernel
  obtain ⟨t, parsed, checked⟩ := exists_ok_of_check found
  have names : t.names = ["depth", "pi"] := by simpa using checked
  obtain ⟨unresolved, _, unread⟩ := outcome_decided_by_names parsed
  have apart : "n" ∉ t.reads := by
    rw [Tree.reads, names]
    decide
  have missing : (depthScope.withValue "depth" .missing).resolve "depth" =
      .error (.missingInput (.blank "depth")) := by rfl
  refine ⟨unread depthScope "n" _ apart, unresolved _ "depth" (by rw [names]; decide) fun y => ?_⟩
  rw [missing]
  nofun

end Costing.Formula
