/-
  SqlCompose.Collector

  A collector records the values that are bound while a statement is composed, in
  the order in which they are bound, and hands out their markers. Composing is a
  computation over a collector (`Render`), and `bind` is its only step that
  records something: it appends one value and gives the marker of the place where
  that value now stands.
-/
import SqlCompose.Marker
import SqlCompose.Value.Basic

namespace SqlCompose

/-- The values bound so far and the style of their markers. -/
structure Collector where
  style : MarkerStyle
  values : Array Value := #[]

/-- A computation that may bind values. -/
abbrev Render := StateM Collector

namespace Collector

variable {α β : Type}

/-- The result of `x` on the collector `c`, and the collector after it. -/
def run (c : Collector) (x : Render α) : α × Collector := Id.run (StateT.run x c)

@[simp] theorem run_pure (a : α) (c : Collector) : c.run (pure a) = (a, c) := rfl

@[simp] theorem run_bind (x : Render α) (f : α → Render β) (c : Collector) :
    c.run (x >>= f) = (c.run x).2.run (f (c.run x).1) := rfl

@[simp] theorem run_map (f : α → β) (x : Render α) (c : Collector) :
    c.run (f <$> x) = (f (c.run x).1, (c.run x).2) := rfl

@[simp] theorem run_get (c : Collector) : c.run get = (c, c) := rfl

/-! ## Binding -/

/-- Binds `v`: records it last and gives its marker. -/
def bind (v : Value) : Render String :=
  modifyGet fun c => (c.style.marker (c.values.size + 1), { c with values := c.values.push v })

/-- Binds every value of a list, in order. -/
def bindAll : List Value → Render (List String)
  | [] => return []
  | v :: vs => do
    let marker ← bind v
    let markers ← bindAll vs
    return marker :: markers

/-- The marker of a value is that of the place where it now stands. -/
@[simp] theorem run_bind_value (v : Value) (c : Collector) :
    c.run (bind v) =
      (c.style.marker (c.values.size + 1), { c with values := c.values.push v }) := rfl

@[simp] theorem run_bindAll_nil (c : Collector) : c.run (bindAll []) = ([], c) := rfl

@[simp] theorem run_bindAll_cons (v : Value) (vs : List Value) (c : Collector) :
    c.run (bindAll (v :: vs)) =
      ((c.run (bind v)).1 :: ((c.run (bind v)).2.run (bindAll vs)).1,
        ((c.run (bind v)).2.run (bindAll vs)).2) := rfl

/-- Binding a list appends its values in order and leaves the style as it is. -/
theorem run_bindAll_collector (vs : List Value) (c : Collector) :
    (c.run (bindAll vs)).2 = { c with values := c.values ++ vs } := by
  induction vs generalizing c with
  | nil => simp
  | cons v vs ih =>
      have h_push : c.values.push v ++ vs = c.values ++ (v :: vs) := by simp
      simp only [run_bindAll_cons, run_bind_value, ih, h_push]

/-- The markers of a list are those of consecutive places. -/
theorem run_bindAll_markers (vs : List Value) (c : Collector) :
    (c.run (bindAll vs)).1 =
      (List.range' (c.values.size + 1) vs.length).map c.style.marker := by
  induction vs generalizing c with
  | nil => simp
  | cons v vs ih =>
      simp only [run_bindAll_cons, run_bind_value, ih, Array.size_push, List.length_cons,
        List.range'_succ, List.map_cons]

end Collector

end SqlCompose
