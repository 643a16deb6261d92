import VibesWaf.Go.Strings
import VibesWaf.Lib.Reader

/-!
# Inspecting a request body

`bufferBodyForInspection` reads at most a limit of the body of a request for the rules, and puts a
`replayBody` in its place: the bytes it has read, and then the body itself, which goes on where it
was left.

`bufferBodyForInspection_spec` says that the upstream sees nothing of it. For every body and every
positive limit, what is inspected is a beginning of the body, and the body of the request delivers
afterwards what it would have delivered, down to the error it ends with.
-/

namespace VibesWaf

variable {σ ε : Type*}

/-- `Request.Body` after the inspection: as it was, or a `replayBody`. -/
inductive RequestBody (σ : Type*)
  | original (body : σ)
  | replayBody (reader : MultiState GoString σ)

/-- `Read` of the body of a request. -/
def RequestBody.read (read : Reader σ UInt8 ε) : Reader (RequestBody σ) UInt8 ε :=
  fun body n =>
    match body with
    | .original s =>
      let r := read s n
      ⟨r.items, r.ends, .original r.state⟩
    | .replayBody m =>
      let r := multiRead listRead read m n
      ⟨r.items, r.ends, .replayBody r.state⟩

/-- `bufferBodyForInspection`, with the room that `io.ReadAll` makes in its buffer: what is
inspected, and the body of the request afterwards. It is `none` when the fuel runs out. -/
def bufferBodyForInspection (read : Reader σ UInt8 ε) (room : ℕ → ℕ) (fuel : ℕ) (body : Option σ)
    (limit : ℤ) : Option (GoString × Option (RequestBody σ)) :=
  match body with
  | none => some ([], none)
  | some original =>
    if limit ≤ 0 then some ([], some (.original original))
    else
      match readAll (limitRead read) room fuel [] (original, limit.toNat) with
      | none => none
      -- an error is not looked at: the body will give it again
      | some (sampled, _, rest, _) =>
        if sampled.length = 0 then some ([], some (.original rest))
        else some (sampled, some (.replayBody (.first sampled rest)))

/-! ### What the body delivers afterwards -/

section Delivers

variable {read : Reader σ UInt8 ε} {e : StreamEnd ε}

theorem RequestBody.delivers_original {s : σ} {xs : GoString} (h : Delivers read e xs s) :
    Delivers (RequestBody.read read) e xs (.original s) :=
  h.embed fun _ _ => rfl

theorem RequestBody.delivers_replayBody {m : MultiState GoString σ} {xs : GoString}
    (h : Delivers (multiRead listRead read) e xs m) :
    Delivers (RequestBody.read read) e xs (.replayBody m) :=
  h.embed fun _ _ => rfl

/-- **Body inspection.** Of a body that delivers some content and ends, as much of the content is
inspected as the limit allows, and the body of the request delivers the content and ends as the
body did, however it is read; read to its end, it gives just that. -/
theorem bufferBodyForInspection_spec {content : GoString} {s : σ} (h : Delivers read e content s)
    (room : ℕ → ℕ) {limit : ℤ} (hlimit : 0 < limit) :
    ∃ enough, ∀ fuel, enough ≤ fuel → ∃ body,
      bufferBodyForInspection read room fuel (some s) limit =
          some (content.take limit.toNat, some body) ∧
        Delivers (RequestBody.read read) e content body ∧
        ∀ room', ∃ enough', ∀ fuel', enough' ≤ fuel' → ∃ body',
          readAll (RequestBody.read read) room' fuel' [] body = some (content, e, body') := by
  suffices hbody : ∃ enough, ∀ fuel, enough ≤ fuel → ∃ body,
      bufferBodyForInspection read room fuel (some s) limit =
          some (content.take limit.toNat, some body) ∧
        Delivers (RequestBody.read read) e content body by
    obtain ⟨enough, henough⟩ := hbody
    refine ⟨enough, fun fuel hfuel => ?_⟩
    obtain ⟨body, hbuffer, hdelivers⟩ := henough fuel hfuel
    refine ⟨body, hbuffer, hdelivers, fun room' => ?_⟩
    obtain ⟨enough', henough'⟩ := hdelivers.readAll room' []
    exact ⟨enough', fun fuel' hfuel' => (henough' fuel' hfuel').imp fun _ h => h.1⟩
  obtain ⟨enough, henough⟩ := readAll_limit h room [] limit.toNat
  refine ⟨enough, fun fuel hfuel => ?_⟩
  obtain ⟨e', ⟨rest, left⟩, hread, hrest⟩ := henough fuel hfuel
  rw [List.nil_append] at hread
  simp only [bufferBodyForInspection, if_neg (not_le.mpr hlimit), hread]
  split
  · rename_i hempty
    -- nothing was read of a positive number of bytes: there is nothing
    have hnil := List.eq_nil_of_length_eq_zero hempty
    have hcontent := List.take_append_drop limit.toNat content
    rw [hnil, List.nil_append] at hcontent
    rw [hnil]
    rw [hcontent] at hrest
    exact ⟨_, rfl, RequestBody.delivers_original hrest⟩
  · refine ⟨_, rfl, RequestBody.delivers_replayBody ?_⟩
    have hmulti := hrest.multi (content.take limit.toNat)
    rwa [List.take_append_drop] at hmulti

end Delivers

/-- A body of seven bytes that comes in two parts and ends with an error, of which five bytes are
inspected. -/
theorem bufferBodyForInspection_spec_upload :
    ∃ enough, ∀ fuel, enough ≤ fuel → ∃ body,
      bufferBodyForInspection (scriptRead (.error (str "unexpected EOF"))) (fun n => 511 - n) fuel
          (some [str "a=1", str "&b=2"]) 5 = some (str "a=1&b", some body) ∧
        Delivers (RequestBody.read (scriptRead (.error (str "unexpected EOF"))))
          (.error (str "unexpected EOF")) (str "a=1&b=2") body ∧
        ∀ room', ∃ enough', ∀ fuel', enough' ≤ fuel' → ∃ body',
          readAll (RequestBody.read (scriptRead (.error (str "unexpected EOF")))) room' fuel' [] body =
            some (str "a=1&b=2", .error (str "unexpected EOF"), body') :=
  bufferBodyForInspection_spec (delivers_script _ [str "a=1", str "&b=2"]) (fun n => 511 - n)
    (by decide)

end VibesWaf
