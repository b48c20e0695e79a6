import Mathlib.Data.List.Flatten
import TypeScope.Proofs.Loading

/-! Where declarations stand. A nested type is named below the type around it and listed after it,
so the declarations nested in the types of one name come, in this order, among all that are
declared. -/
namespace TypeScope

namespace Declared

structure Placed (d : Declared) : Prop where
  single : d.parts = []
  simple : '.' ∉ d.name.toList
  below : ∀ n ∈ d.nested, n.body.outer = some d.fullName

def called (name : String) (arity : Nat) (d : Declared) : Bool :=
  d.fullName = name ∧ d.arity = arity

theorem calledIff {name : String} {arity : Nat} {d : Declared} :
    d.called name arity = true ↔ d.fullName = name ∧ d.arity = arity := decide_eq_true_iff

def calledBelow (outer name : String) (arity : Nat) (d : Declared) : Bool :=
  d.body.outer = some outer && d.called name arity

theorem calledBelowOuter {outer name : String} {arity : Nat} {d : Declared}
    (h : d.calledBelow outer name arity = true) : d.body.outer = some outer := by
  simpa using (Bool.and_eq_true_iff.mp h).1

theorem nameBelow {d : Declared} {outer : String} (below : d.body.outer = some outer) :
    d.fullName = outer ++ "." ++ d.name := by
  rw [fullName, Body.fullName, below]
  rfl

theorem nameLonger {d : Declared} {outer : String} (below : d.body.outer = some outer) :
    outer.length < d.fullName.length := by
  rw [nameBelow below, String.length_append, String.length_append]
  exact Nat.lt_of_lt_of_le (Nat.lt_succ_self outer.length) (Nat.le_add_right ..)

theorem nameUnique {left right : String} {d e : Declared} (leftBelow : d.body.outer = some left)
    (rightBelow : e.body.outer = some right) (simple : '.' ∉ d.name.toList)
    (simpleToo : '.' ∉ e.name.toList) (same : d.fullName = e.fullName) :
    left = right ∧ d.name = e.name := by
  rw [nameBelow leftBelow, nameBelow rightBelow] at same
  have chars := congrArg String.toList same
  simp only [String.toList_append, List.append_assoc] at chars
  obtain ⟨outer, name⟩ := Dotted.lastDotUnique simple simpleToo chars
  exact ⟨String.toList_inj.mp outer, String.toList_inj.mp name⟩

mutual
theorem preorderLonger {least : Nat} (d : Declared) (placed : ∀ e ∈ d.preorder, e.Placed)
    (long : least < d.fullName.length) : ∀ e ∈ d.preorder, least < e.fullName.length := by
  obtain ⟨stamp, body, nested, parts⟩ := d
  intro e mem
  rcases List.mem_cons.mp mem with rfl | below
  · exact long
  · have around := (placed _ List.mem_cons_self).below
    exact preordersLonger nested (fun e mem => placed e (List.mem_cons_of_mem _ mem))
      (fun n mem => Nat.lt_trans long (nameLonger (around n mem))) e below

theorem preordersLonger {least : Nat} (ds : List Declared)
    (placed : ∀ e ∈ preorders ds, e.Placed) (long : ∀ d ∈ ds, least < d.fullName.length) :
    ∀ e ∈ preorders ds, least < e.fullName.length := by
  cases ds with
  | nil => exact fun e mem => nomatch mem
  | cons d rest =>
    intro e mem
    rcases List.mem_append.mp mem with here | later
    · exact preorderLonger d (fun e mem => placed e (List.mem_append_left _ mem))
        (long d List.mem_cons_self) e here
    · exact preordersLonger rest (fun e mem => placed e (List.mem_append_right _ mem))
        (fun d mem => long d (List.mem_cons_of_mem _ mem)) e later
end

section Below
variable {outer : String} {p : Declared → Bool}

theorem nestedElsewhere (named : ∀ m, p m = true → m.body.outer = some outer) {e : Declared}
    (placed : e.Placed) (other : e.fullName ≠ outer) :
    e.nested.filter p = [] := by
  refine List.filter_eq_nil_iff.mpr fun m mem pass => other ?_
  exact Option.some.inj ((placed.below m mem).symm.trans (named m pass))

mutual
theorem preorderBelow (named : ∀ m, p m = true → m.body.outer = some outer) (d : Declared)
    (placed : ∀ e ∈ d.preorder, e.Placed) :
    (preorders d.nested).filter p = d.preorder.flatMap (fun e => e.nested.filter p) := by
  obtain ⟨stamp, body, nested, parts⟩ := d
  have inner : ∀ e ∈ preorders nested, e.Placed :=
    fun e mem => placed e (List.mem_cons_of_mem _ mem)
  have own := placed _ List.mem_cons_self
  refine preordersBelow named nested inner ?_
  by_cases here : (Declared.mk stamp body nested parts).fullName = outer
  -- deeper names are longer than this one
  · refine .inr fun e mem => nestedElsewhere named (inner e mem) fun same => ?_
    have longer := preordersLonger nested inner (fun n mem => nameLonger (own.below n mem)) e mem
    rw [here, same] at longer
    exact Nat.lt_irrefl _ longer
  · exact .inl (nestedElsewhere named own here)

theorem preordersBelow (named : ∀ m, p m = true → m.body.outer = some outer)
    (ds : List Declared) (placed : ∀ e ∈ preorders ds, e.Placed)
    (apart : ds.filter p = [] ∨ ∀ e ∈ preorders ds, e.nested.filter p = []) :
    (preorders ds).filter p =
      ds.filter p ++ (preorders ds).flatMap (fun e => e.nested.filter p) := by
  cases ds with
  | nil => rfl
  | cons d rest =>
    have here := preorderBelow named d fun e mem => placed e (List.mem_append_left _ mem)
    have later := preordersBelow named rest
      (fun e mem => placed e (List.mem_append_right _ mem)) <| by
      refine apart.imp (fun none_ => ?_) fun none_ e mem => none_ e (List.mem_append_right _ mem)
      exact List.filter_eq_nil_iff.mpr fun m mem =>
        List.filter_eq_nil_iff.mp none_ m (List.mem_cons_of_mem _ mem)
    have first : d.preorder.filter p =
        [d].filter p ++ d.preorder.flatMap (fun e => e.nested.filter p) := by
      rw [← here, preorderCons, ← List.filter_append]
      rfl
    rw [preorders, List.filter_append, List.flatMap_append, first, later, List.filter_cons]
    rcases apart with none_ | none_
    · have absent := List.filter_eq_nil_iff.mp none_
      have skip : rest.filter p = [] :=
        List.filter_eq_nil_iff.mpr fun m mem => absent m (List.mem_cons_of_mem _ mem)
      simp [absent d List.mem_cons_self, skip]
    · have empty : d.preorder.flatMap (fun e => e.nested.filter p) = [] :=
        List.flatMap_eq_nil_iff.mpr fun e mem => none_ e (List.mem_append_left _ mem)
      rw [empty]
      by_cases pass : p d = true <;> simp [pass]
end

end Below
end Declared

section Built
open Blueprint

theorem Blueprint.buildInOuter (file : Option FileId) (around : Option Around) (stamp : Stamp)
    (b : Blueprint) : (buildIn file around stamp b).body.outer = around.bind Around.outer := by
  cases b
  cases around <;> rfl

theorem Blueprint.buildAllOuter (file : Option FileId) (around : Option Around) (stamp : Stamp)
    (i : Nat) (bs : List Blueprint) :
    ∀ d ∈ buildAll file around stamp i bs, d.body.outer = around.bind Around.outer := by
  induction bs generalizing i with
  | nil => exact fun d mem => nomatch mem
  | cons b rest ih =>
    intro d mem
    rcases List.mem_cons.mp mem with rfl | later
    · exact buildInOuter ..
    · exact ih (i + 1) d later

mutual
theorem Blueprint.buildInPlaced (file : Option FileId) (around : Option Around) (stamp : Stamp)
    (b : Blueprint) : ∀ d ∈ (buildIn file around stamp b).preorder, d.Placed := by
  obtain ⟨fullName, kind, modifiers, parameters, base, interfaces, members, nested, location⟩ := b
  intro d mem
  rcases List.mem_cons.mp mem with rfl | below
  · exact ⟨rfl, Dotted.splitSimple fullName, buildAllOuter file _ stamp 0 nested⟩
  · exact buildAllPlaced file _ stamp 0 nested d below

theorem Blueprint.buildAllPlaced (file : Option FileId) (around : Option Around) (stamp : Stamp)
    (i : Nat) (bs : List Blueprint) :
    ∀ d ∈ Declared.preorders (buildAll file around stamp i bs), d.Placed := by
  cases bs with
  | nil => exact fun d mem => nomatch mem
  | cons b rest =>
    intro d mem
    rcases List.mem_append.mp mem with here | later
    · exact buildInPlaced file around _ b d here
    · exact buildAllPlaced file around stamp (i + 1) rest d later
end

structure CompilationUnit.Placed (u : CompilationUnit) : Prop where
  top : ∀ d ∈ u.types, d.body.outer = none
  all : ∀ d ∈ Declared.preorders u.types, d.Placed

theorem CompilationUnit.buildPlaced (stamp : Stamp) (file : FileId) (fileName : String)
    (usings : List UsingDirective) (types : List Blueprint) :
    (build stamp file fileName usings types).Placed where
  top := buildAllOuter (some file) none stamp 0 types
  all := buildAllPlaced (some file) none stamp 0 types

end Built

namespace Store

theorem flatMapFiltered {α β : Type} {q : α → Bool} {f : α → List β} {xs : List α}
    (skip : ∀ x ∈ xs, q x = false → f x = []) : (xs.filter q).flatMap f = xs.flatMap f := by
  induction xs with
  | nil => rfl
  | cons x rest ih =>
    have later := ih fun y mem => skip y (List.mem_cons_of_mem _ mem)
    rw [List.filter_cons, List.flatMap_cons, ← later]
    by_cases pass : q x = true
    · rw [if_pos pass, List.flatMap_cons]
    · rw [if_neg pass, skip x List.mem_cons_self (by simpa using pass), List.nil_append]

theorem memDeclarationsOf {units : List CompilationUnit} {name : String} {arity : Nat}
    {d : Declared} : d ∈ declarationsOf units name arity ↔
      d ∈ declarations units ∧ d.fullName = name ∧ d.arity = arity := by
  rw [declarationsOf, List.mem_filter, decide_eq_true_iff]

variable {units : List CompilationUnit} (placed : ∀ u ∈ units, u.Placed)
include placed

theorem declarationPlaced {d : Declared} (mem : d ∈ declarations units) : d.Placed := by
  obtain ⟨u, inside, listed⟩ := List.mem_flatMap.mp mem
  exact (placed u inside).all d listed

theorem declarationsBelow {outer : String} {p : Declared → Bool}
    (named : ∀ m, p m = true → m.body.outer = some outer) :
    (declarations units).filter p =
      (declarations units).flatMap (fun e => e.nested.filter p) := by
  rw [declarations, List.filter_flatMap, List.flatMap_assoc]
  refine List.flatMap_congr fun u inside => ?_
  have top : u.types.filter p = [] := List.filter_eq_nil_iff.mpr fun d mem pass => by
    have below := named d pass
    rw [(placed u inside).top d mem] at below
    cases below
  rw [Declared.preordersBelow named u.types (placed u inside).all (.inl top), top, List.nil_append]

variable {outer name : String} {arity own : Nat}

theorem nestedBelow :
    ((declarationsOf units outer arity).flatMap Declared.nested).filter (Declared.called name own) =
      (declarationsOf units outer arity).flatMap
        (fun e => e.nested.filter (Declared.calledBelow outer name own)) := by
  rw [List.filter_flatMap]
  refine List.flatMap_congr fun e mem => List.filter_congr fun m inside => ?_
  obtain ⟨listed, rfl, -⟩ := memDeclarationsOf.mp mem
  simp [Declared.calledBelow, (declarationPlaced placed listed).below m inside]

theorem listedBelow :
    (declarations units).flatMap
        (fun e => e.nested.filter (Declared.calledBelow outer name own)) =
      (declarationsOf units name own).filter (fun m => m.body.outer = some outer) := by
  rw [← declarationsBelow placed fun _ => Declared.calledBelowOuter, declarationsOf,
    List.filter_filter]
  rfl

theorem nestedListed :
    (((declarationsOf units outer arity).flatMap Declared.nested).filter
      (Declared.called name own)).Sublist (declarationsOf units name own) := by
  have listed : (declarationsOf units outer arity).Sublist (declarations units) :=
    List.filter_sublist
  have among := listed.flatMap (fun e => e.nested.filter (Declared.calledBelow outer name own))
  rw [listedBelow placed] at among
  rw [nestedBelow placed]
  exact among.trans List.filter_sublist

theorem nestedWhole
    (others : ∀ e ∈ declarations units, e.fullName = outer → e.arity ≠ arity →
      e.nested.filter (Declared.called name own) = [])
    (inside : ∀ m ∈ declarationsOf units name own, m.body.outer = some outer) :
    ((declarationsOf units outer arity).flatMap Declared.nested).filter
      (Declared.called name own) = declarationsOf units name own := by
  have skip : ∀ e ∈ declarations units, e.called outer arity = false →
      e.nested.filter (Declared.calledBelow outer name own) = [] := fun e mem other => by
    by_cases same : e.fullName = outer
    · have away : e.arity ≠ arity := by simpa [Declared.called, same] using other
      refine List.filter_eq_nil_iff.mpr fun m listed pass => ?_
      exact List.filter_eq_nil_iff.mp (others e mem same away) m listed
        (Bool.and_eq_true_iff.mp pass).2
    · exact Declared.nestedElsewhere (fun _ => Declared.calledBelowOuter)
        (declarationPlaced placed mem) same
  rw [nestedBelow placed]
  exact (flatMapFiltered skip).trans <| (listedBelow placed).trans <|
    List.filter_eq_self.mpr fun m mem => by simpa using inside m mem

end Store
end TypeScope
