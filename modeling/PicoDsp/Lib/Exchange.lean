/-
A request and its reply over two wires.

The one side sends the request in pieces, the other side takes it in as it comes and
answers when it has all of it; the reply is handed over in pieces too. `Exchange` says
where the bytes are: a request of which something is outstanding has no reply yet, and
a request that was taken in has a reply that is part delivered and part under way. Both
wires keep the order, and nothing is said about how the bytes are cut.

The relation is inductive with these two cases, so that an invariant of a
larger system need not carry the implications between its variables: a case of the relation
gives all of them. Each move of either side is a lemma (`send`, `take`, `answer`,
`deliver`), and which one applies to a byte that is taken in is decided by whether
anything is left behind it.

What is delivered is always a part of the reply from its start (`got_prefix`), so a side
that waits for the whole reply cannot be misled by where it was cut.

For the other direction, that the reply arrives, the elements that still have to be taken
in or delivered are counted (`left`). Sending changes nothing about their number, and
each of the other moves takes some away, so an exchange in which somebody can always
move comes to its end.
-/
import Mathlib.Data.List.Infix

set_option autoImplicit false

namespace PicoDsp.Lib

variable {α : Type}

/-- Of the request `req`, `taken` was taken in, `out` is under way and `unsent` was not
sent yet; of the reply `rep`, `back` is under way and `got` was delivered. -/
inductive Exchange (req rep : List α) (taken unsent out back got : List α) : Prop
  | asking (hreq : taken ++ (out ++ unsent) = req) (hleft : out ++ unsent ≠ [])
      (hback : back = []) (hgot : got = [])
  | answered (htaken : taken = req) (hout : out = []) (hunsent : unsent = [])
      (hrep : got ++ back = rep)

namespace Exchange

variable {req rep taken unsent out back got : List α}

/-- An exchange begins with a request that is not sent. -/
theorem start (h : req ≠ []) (rep : List α) : Exchange req rep [] req [] [] [] :=
  .asking rfl h rfl rfl

/-- What was taken in and what is outstanding are the request. -/
theorem request (h : Exchange req rep taken unsent out back got) :
    taken ++ (out ++ unsent) = req := by
  cases h with
  | asking hreq _ _ _ => exact hreq
  | answered htaken hout hunsent _ => rw [htaken, hout, hunsent, List.append_nil, List.append_nil]

/-- What is delivered is a part of the reply, from its start. -/
theorem got_prefix (h : Exchange req rep taken unsent out back got) : got <+: rep := by
  cases h with
  | asking _ _ _ hgot =>
      rw [hgot]
      exact List.nil_prefix
  | answered _ _ _ hrep => exact ⟨back, hrep⟩

/-- A reply that is there answers the whole request. -/
theorem all_taken (h : Exchange req rep taken unsent out back got) (hgot : got ≠ []) :
    taken = req ∧ out = [] ∧ unsent = [] := by
  cases h with
  | asking _ _ _ hnone => exact absurd hnone hgot
  | answered htaken hout hunsent _ => exact ⟨htaken, hout, hunsent⟩

/-- Behind a whole reply there is nothing more. -/
theorem back_nil (h : Exchange req rep taken unsent out back rep) : back = [] := by
  cases h with
  | asking _ _ hback _ => exact hback
  | answered _ _ _ hrep => exact List.append_right_eq_self.mp hrep

/-- A piece of the request is sent. -/
theorem send {piece : List α} (h : Exchange req rep taken (piece ++ unsent) out back got) :
    Exchange req rep taken unsent (out ++ piece) back got := by
  cases h with
  | asking hreq hleft hback hgot =>
      rw [← List.append_assoc out] at hreq hleft
      exact .asking hreq hleft hback hgot
  | answered htaken hout hunsent hrep =>
      obtain ⟨hpiece, hrest⟩ := List.append_eq_nil_iff.mp hunsent
      rw [hpiece, List.append_nil]
      exact .answered htaken hout hrest hrep

/-- An element of the request is taken in, and it was not the last one. -/
theorem take {x : α} (h : Exchange req rep taken unsent (x :: out) back got)
    (hleft : out ++ unsent ≠ []) : Exchange req rep (taken ++ [x]) unsent out back got := by
  cases h with
  | asking hreq _ hback hgot =>
      refine .asking ?_ hleft hback hgot
      rw [List.append_assoc, List.singleton_append, ← List.cons_append]
      exact hreq
  | answered _ hout _ _ => cases hout

/-- The last element of the request is taken in, and the reply goes out. -/
theorem answer {x : α} (h : Exchange req rep taken unsent (x :: out) back got)
    (hleft : out ++ unsent = []) :
    taken ++ [x] = req ∧ Exchange req rep (taken ++ [x]) unsent out (back ++ rep) got := by
  cases h with
  | asking hreq _ hback hgot =>
      rw [List.cons_append, hleft] at hreq
      obtain ⟨hout, hunsent⟩ := List.append_eq_nil_iff.mp hleft
      refine ⟨hreq, .answered hreq hout hunsent ?_⟩
      rw [hback, hgot]
      rfl
  | answered _ hout _ _ => cases hout

/-- A piece of the reply is delivered. -/
theorem deliver {piece : List α} (h : Exchange req rep taken unsent out (piece ++ back) got) :
    Exchange req rep taken unsent out back (got ++ piece) := by
  cases h with
  | asking hreq hleft hback hgot =>
      obtain ⟨hpiece, hrest⟩ := List.append_eq_nil_iff.mp hback
      rw [hpiece, List.append_nil]
      exact .asking hreq hleft hrest hgot
  | answered htaken hout hunsent hrep =>
      rw [← List.append_assoc] at hrep
      exact .answered htaken hout hunsent hrep

/-! ## What is left to do -/

/-- The number of elements that still have to be taken in or delivered. -/
def left (rep unsent out back : List α) : ℕ :=
  (out ++ unsent).length + if (out ++ unsent).isEmpty then back.length else rep.length

/-- At the start all of it is left. -/
theorem left_start (req rep : List α) (h : req ≠ []) :
    left rep req [] [] = req.length + rep.length := by
  rw [left, List.nil_append, if_neg]
  rw [List.isEmpty_iff]
  exact h

/-- Sending moves elements from one place to another. -/
theorem left_send (rep piece unsent out back : List α) :
    left rep unsent (out ++ piece) back = left rep (piece ++ unsent) out back := by
  rw [left, left, List.append_assoc]

/-- Taking one in leaves one less. -/
theorem left_take {x : α} (hleft : out ++ unsent ≠ []) :
    left rep unsent (x :: out) back = left rep unsent out back + 1 := by
  have hempty : (out ++ unsent).isEmpty = false := by
    rw [List.isEmpty_eq_false_iff]
    exact hleft
  rw [left, left, hempty, List.cons_append, List.isEmpty_cons, List.length_cons]
  simp only [Bool.false_eq_true, if_false]
  omega

/-- So does taking in the last one: the reply was counted already. -/
theorem left_answer {x : α} (h : Exchange req rep taken unsent (x :: out) back got)
    (hleft : out ++ unsent = []) :
    left rep unsent (x :: out) back = left rep unsent out (back ++ rep) + 1 := by
  cases h with
  | asking _ _ hback _ =>
      rw [left, left, List.cons_append, hleft, hback]
      simp only [List.length_cons, List.length_nil, List.isEmpty_cons, List.isEmpty_nil,
        Bool.false_eq_true, if_false, if_true, List.nil_append]
      omega
  | answered _ hout _ _ => cases hout

/-- What is delivered is as much less. -/
theorem left_deliver (h : Exchange req rep taken unsent out back got) {n : ℕ}
    (hn : n ≤ back.length) :
    left rep unsent out (back.drop n) + n = left rep unsent out back := by
  cases h with
  | asking _ _ hback _ =>
      rw [hback] at hn ⊢
      rw [Nat.le_zero.mp hn]
      rfl
  | answered _ hout hunsent _ =>
      rw [hout, hunsent]
      simp only [left, List.append_nil, List.isEmpty_nil, if_true, List.length_nil,
        List.length_drop]
      omega

/-- As long as the reply is not there, something is outstanding or under way. -/
theorem not_whole (h : Exchange req rep taken unsent out back got) (hgot : got ≠ rep) :
    out ++ unsent ≠ [] ∨ back ≠ [] := by
  cases h with
  | asking _ hleft _ _ => exact Or.inl hleft
  | answered _ _ _ hrep =>
      right
      rintro rfl
      rw [List.append_nil] at hrep
      exact hgot hrep

end Exchange

end PicoDsp.Lib
