import PitBox.Runtime.ServiceCall

/-!
# Responses to nested calls

The response of a nested call reaches the guest in two ways. The service import
hands over the pairs of its header map. A guest that sends HTTP gets a new
response that begins with a content length, to which the headers are added as
the map is consumed.
-/

namespace PitBox.Runtime

/-- The response of an HTTP request of the guest. -/
structure IncomingResponse where
  status : ℕ
  headers : HeaderMap String HeaderValue
  body : Bytes

/-- The response of the service import. -/
structure ServiceResponse where
  status : ℕ
  headers : List (String × String)
  body : Bytes

def contentLength : String := "content-length"

namespace ServiceInvocationResponse

variable (response : ServiceInvocationResponse)

/-- The conversion in `send_request`. A value whose name is not yielded is left out. -/
def toIncoming : IncomingResponse where
  status := response.status
  headers :=
    let builder := HeaderMap.empty.append contentLength (some (toString response.body.length))
    response.headers.intoIter.foldl (fun builder item =>
      match item.1 with
      | some name => builder.append name item.2
      | none => builder) builder
  body := response.body

/-- The conversion in `call` of the service import. -/
def toService : ServiceResponse where
  status := response.status
  headers := response.headers.pairs.map fun pair => (pair.1, pair.2.getD "")
  body := response.body

def Visible : Prop := ∀ pair ∈ response.headers.pairs, pair.2.isSome

instance : Decidable response.Visible := by
  unfold Visible
  infer_instance

/-- Apart from the content length both ways give the values of every name, and
the one of HTTP has one content length. -/
structure KeepsHeaders : Prop where
  incoming : ∀ name ≠ contentLength,
    response.toIncoming.headers.values name = response.headers.values name
  contentLength : response.toIncoming.headers.values contentLength =
    [some (toString response.body.length)]
  service : ∀ name ≠ Runtime.contentLength,
    ((response.toService.headers.filter (·.1 = name)).map fun pair => some pair.2) =
      response.toIncoming.headers.values name

def SingleValued : Prop :=
  (∀ name, (response.headers.values name).length ≤ 1) ∧ response.headers.values contentLength = []

variable {response}

/-- The values of a name in the new response. -/
theorem values_toIncoming (name : String) : response.toIncoming.headers.values name =
    (if contentLength = name then [some (toString response.body.length)] else []) ++
      (response.headers.values name).take 1 := by
  have hfold (items : List (Option String × HeaderValue)) (m : HeaderMap String HeaderValue) :
      items.foldl (fun builder item =>
        match item.1 with
        | some name => builder.append name item.2
        | none => builder) m = m.extend (items.filterMap fun item => item.1.map (·, item.2)) := by
    induction items generalizing m with
    | nil => rfl
    | cons item items ih =>
      obtain ⟨name | name, value⟩ := item
      · exact ih m
      · exact ih (m.append name value)
  change HeaderMap.values (List.foldl _ _ _) name = _
  rw [hfold, HeaderMap.values_extend, HeaderMap.values_append, HeaderMap.values_empty,
    List.nil_append]
  exact congrArg _ (response.headers.filter_named name)

theorem values_toService (h : response.Visible) (name : String) :
    ((response.toService.headers.filter (·.1 = name)).map fun pair => some pair.2) =
      response.headers.values name := by
  rw [← response.headers.filter_pairs name]
  change (((response.headers.pairs.map fun pair => (pair.1, pair.2.getD "")).filter
    (·.1 = name)).map fun pair => some pair.2) = _
  rw [List.filter_map, List.map_map]
  apply List.map_congr_left
  intro pair hpair
  obtain ⟨text, htext⟩ := Option.isSome_iff_exists.mp (h pair (List.mem_of_mem_filter hpair))
  simp [htext]

/-- Both ways keep the headers of exactly the responses in which no name has two
values and the content length has none. -/
theorem keepsHeaders_iff (h : response.Visible) :
    response.KeepsHeaders ↔ response.SingleValued := by
  constructor
  · intro hkeeps
    have hlength : response.headers.values contentLength = [] := by
      have hone := hkeeps.contentLength
      rw [values_toIncoming, if_pos rfl] at hone
      have hnone := List.append_cancel_left (hone.trans (List.append_nil _).symm)
      simpa using hnone
    refine ⟨fun name => ?_, hlength⟩
    by_cases hname : name = contentLength
    · rw [hname, hlength]
      exact Nat.zero_le 1
    · have hvalues := hkeeps.incoming name hname
      rw [values_toIncoming, if_neg (Ne.symm hname), List.nil_append] at hvalues
      rw [← hvalues]
      exact List.length_take_le 1 _
  · rintro ⟨hsingle, hlength⟩
    have hincoming (name : String) (hname : name ≠ contentLength) :
        response.toIncoming.headers.values name = response.headers.values name := by
      rw [values_toIncoming, if_neg (Ne.symm hname), List.nil_append,
        List.take_of_length_le (hsingle name)]
    constructor
    · exact hincoming
    · rw [values_toIncoming, if_pos rfl, hlength]
      rfl
    · intro name hname
      rw [hincoming name hname, values_toService h]

/-- A response that sets two cookies. -/
def twoCookies : ServiceInvocationResponse where
  status := 200
  headers := (HeaderMap.empty.append "set-cookie" (some "a=1")).append "set-cookie" (some "b=2")
  body := []
  childExecutionId := "2"

theorem keepsHeaders_iff_twoCookies :
    twoCookies.KeepsHeaders ↔ twoCookies.SingleValued := keepsHeaders_iff (by decide)

/-- The second cookie is lost. -/
theorem twoCookies_lost : ¬ ∀ response : ServiceInvocationResponse,
    response.Visible → response.KeepsHeaders := by
  intro h
  have hcookies := (h twoCookies (by decide)).incoming "set-cookie" (by decide)
  exact absurd hcookies (by decide)

end ServiceInvocationResponse

end PitBox.Runtime
