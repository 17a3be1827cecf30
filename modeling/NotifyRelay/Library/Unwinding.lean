import Mathlib.Data.List.Forall2

/-! Machines that answer one request after the other, and when the requests of some of their
users cannot be noticed by the others: two runs, one with all the requests and one with only
some of them, are compared answer by answer. -/
namespace NotifyRelay.Unwinding

variable {σ τ ι κ ο π : Type*}

/-- The requests with their answers, in order. -/
def serve (handle : σ → ι → ο × σ) : σ → List ι → List (ι × ο)
  | _, [] => []
  | s, request :: rest => (request, (handle s request).1) :: serve handle (handle s request).2 rest

/-- The answers to the requests that `mine` selects. -/
def answersTo (mine : ι → Bool) (handle : σ → ι → ο × σ) (s : σ) (requests : List ι) : List ο :=
  ((serve handle s requests).filter fun served => mine served.1).map Prod.snd

theorem answersTo_cons_of_mine {mine : ι → Bool} {request : ι} (h : mine request = true)
    (handle : σ → ι → ο × σ) (s : σ) (rest : List ι) :
    answersTo mine handle s (request :: rest) =
      (handle s request).1 :: answersTo mine handle (handle s request).2 rest := by
  simp [answersTo, serve, h]

theorem answersTo_cons_of_other {mine : ι → Bool} {request : ι} (h : mine request = false)
    (handle : σ → ι → ο × σ) (s : σ) (rest : List ι) :
    answersTo mine handle s (request :: rest) =
      answersTo mine handle (handle s request).2 rest := by
  simp [answersTo, serve, h]

/-- The answers are related if a relation between the two states survives requests that are
left out and answers the others alike. What is still to come may restrict it. -/
theorem answers_agree {mine : ι → Bool} {handle : σ → ι → ο × σ} {handle' : τ → κ → π × τ}
    {same : ι → κ → Prop} {agree : ο → π → Prop} (inv : List ι → σ → τ → Prop)
    (hmine : ∀ request rest request' s t, inv (request :: rest) s t → mine request = true →
      same request request' → agree (handle s request).1 (handle' t request').1 ∧
        inv rest (handle s request).2 (handle' t request').2)
    (hother : ∀ request rest s t, inv (request :: rest) s t → mine request = false →
      inv rest (handle s request).2 t)
    {requests : List ι} {requests' : List κ} {s : σ} {t : τ} (h : inv requests s t)
    (hsame : List.Forall₂ same (requests.filter mine) requests') :
    List.Forall₂ agree (answersTo mine handle s requests)
      ((serve handle' t requests').map Prod.snd) := by
  induction requests generalizing requests' s t with
  | nil =>
      cases hsame
      exact .nil
  | cons request rest ih =>
      cases hrequest : mine request with
      | true =>
          rw [List.filter_cons_of_pos hrequest] at hsame
          cases hsame with
          | cons hfirst hrest =>
              obtain ⟨hagree, hinv⟩ := hmine request rest _ s t h hrequest hfirst
              rw [answersTo_cons_of_mine hrequest]
              exact .cons hagree (ih hinv hrest)
      | false =>
          rw [List.filter_cons_of_neg (by simp [hrequest])] at hsame
          rw [answersTo_cons_of_other hrequest]
          exact ih (hother request rest s t h hrequest) hsame

end NotifyRelay.Unwinding
