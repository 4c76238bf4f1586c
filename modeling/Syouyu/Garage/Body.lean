import Syouyu.Garage.Client

/-!
# Bodies of responses

How the client reads the body of a response: chunk by chunk, up to a limit, and decodes it.

* `readLimited`           the loop of `read_limited`, with the slice that could panic;
* `executeJson`           a response turned into a result or an error;
* `readLimited_chunks`    **only the bytes count, not the chunks they come in**;
* `executeJson_success`   what that means for an answer: too large, or decoded as a whole.
-/

set_option linter.unusedSectionVars false

namespace Syouyu
open Lib

/-! ## reading -/

/-- what the transport hands over: the next chunk, or why there is none -/
abbrev Chunk := Except String (List UInt8)

/-- `chunk[..end]`, which panics past the end -/
def sliceTo (chunk : List UInt8) (end_ : Nat) : Option (List UInt8) :=
  if end_ ≤ chunk.length then some (chunk.take end_) else none

section
variable (limit : Nat) (operation : String)

/-- the loop, with the body so far; `none` is a panic -/
def readChunks (body : List UInt8) : List Chunk → Option (Except GarageError (List UInt8 × Bool))
  | [] => some (.ok (body, false))
  | .error source :: _ => some (.error (.transport operation source))
  | .ok chunk :: chunks =>
    let remaining := limit - body.length
    if remaining < chunk.length then do
      let part ← sliceTo chunk remaining
      -- the rest of the response is not read
      some (.ok (body ++ part, true))
    else readChunks (body ++ chunk) chunks

/-- `read_limited`: the body, and whether it was cut off -/
def readLimited (chunks : List Chunk) : Option (Except GarageError (List UInt8 × Bool)) :=
  readChunks limit operation [] chunks

variable {limit operation}

/-- the slice is taken of a chunk that is longer -/
theorem sliceTo_eq_some {chunk : List UInt8} {end_ : Nat} (h : end_ < chunk.length) :
    sliceTo chunk end_ = some (chunk.take end_) := if_pos (Nat.le_of_lt h)

/-- the loop never reads past the limit: the body so far and what is still to come, cut off there -/
theorem readChunks_ok {body : List UInt8} (hbody : body.length ≤ limit)
    (chunks : List (List UInt8)) :
    readChunks limit operation body (chunks.map .ok) =
      some (.ok ((body ++ chunks.flatten).take limit,
        decide (limit < (body ++ chunks.flatten).length))) := by
  -- the invariant of the loop is that the body so far is within the limit
  induction chunks generalizing body with
  | nil =>
    have hfits : ¬ limit < body.length := Nat.not_lt.mpr hbody
    simp only [List.map_nil, readChunks, List.flatten_nil, List.append_nil,
      List.take_of_length_le hbody, decide_eq_false hfits]
  | cons chunk chunks ih =>
    rw [List.map_cons, readChunks, List.flatten_cons]
    split
    · rename_i hlong
      have hcut : limit < (body ++ (chunk ++ chunks.flatten)).length := by
        simp only [List.length_append]
        omega
      have htake : (chunk ++ chunks.flatten).take (limit - body.length) =
          chunk.take (limit - body.length) := List.take_append_of_le_length (Nat.le_of_lt hlong)
      rw [sliceTo_eq_some hlong, List.take_append, List.take_of_length_le hbody, htake,
        decide_eq_true hcut]
      rfl
    · rename_i hshort
      have hnext : (body ++ chunk).length ≤ limit := by
        rw [List.length_append]
        omega
      rw [ih hnext, List.append_assoc]

theorem readLimited_ok (limit : Nat) (operation : String) (chunks : List (List UInt8)) :
    readLimited limit operation (chunks.map .ok) =
      some (.ok (chunks.flatten.take limit, decide (limit < chunks.flatten.length))) :=
  readChunks_ok (Nat.zero_le limit) chunks

/-- **Only the bytes count.**  Whatever the limit and the chunks, as long as the transport does not
fail: the loop does not panic, the body is the beginning of all the bytes up to the limit, it is cut
off iff there are more, and another way to cut the same bytes into chunks gives the same. -/
theorem readLimited_chunks (limit : Nat) (operation : String) (chunks : List (List UInt8)) :
    (∃ body truncated, readLimited limit operation (chunks.map .ok) = some (.ok (body, truncated)) ∧
      body = chunks.flatten.take (min limit chunks.flatten.length) ∧
      (truncated = true ↔ limit < chunks.flatten.length) ∧ body.length ≤ limit) ∧
    ∀ chunks' : List (List UInt8), chunks'.flatten = chunks.flatten →
      readLimited limit operation (chunks'.map .ok) =
        readLimited limit operation (chunks.map .ok) := by
  refine ⟨⟨_, _, readLimited_ok limit operation chunks, ?_, decide_eq_true_iff, List.length_take_le ..⟩, ?_⟩
  · obtain hle | hlt := Nat.le_total limit chunks.flatten.length
    · rw [Nat.min_eq_left hle]
    · rw [Nat.min_eq_right hlt, List.take_length, List.take_of_length_le hlt]
  · intro chunks' hsame
    rw [readLimited_ok, readLimited_ok, hsame]

-- a body that ends with the limit is whole, also before a last empty chunk
example : readLimited 4 "ListKeys" [.ok [1, 2], .ok [3, 4], .ok []] =
    some (.ok ([1, 2, 3, 4], false)) := by decide

end

/-! ## answers -/

def maxSuccessBodyBytes : Nat := 8 * 1024 * 1024
def maxErrorBodyBytes : Nat := 16 * 1024

structure HttpResponse where
  status : StatusCode
  chunks : List Chunk

def StatusCode.isSuccess (status : StatusCode) : Bool := 200 ≤ status.code && status.code < 300

/-- what the client takes from other crates to understand an error -/
structure ErrorTexts where
  /-- the `message` of a `GarageApiErrorBody` -/
  message : List UInt8 → Option String
  /-- `StatusCode::canonical_reason` -/
  canonicalReason : UInt16 → Option String

/-- `api_error`; the fields of the error that nobody reads are left out -/
def apiError (texts : ErrorTexts) (operation : String) (response : HttpResponse) :
    Option GarageError := do
  match ← readLimited maxErrorBodyBytes operation response.chunks with
  | .ok (body, _) =>
    some (.api operation response.status
      (((texts.message body).or (texts.canonicalReason response.status.code)).getD
        "Garage administration request failed"))
  | .error error => some error

/-- `execute_json`, after the request was sent -/
def executeJson {α : Type} (texts : ErrorTexts) (fromSlice : List UInt8 → Except String α)
    (operation : String) (sent : Except String HttpResponse) : Option (Except GarageError α) :=
  match sent with
  | .error source => some (.error (.transport operation source))
  | .ok response =>
    if !response.status.isSuccess then (apiError texts operation response).map .error
    else do
      match ← readLimited maxSuccessBodyBytes operation response.chunks with
      | .error error => some (.error error)
      | .ok (body, truncated) =>
        if truncated then
          some (.error (.responseTooLarge operation response.status maxSuccessBodyBytes))
        else some ((fromSlice body).mapError (.decode operation response.status))

section
variable {α : Type} {texts : ErrorTexts} {fromSlice : List UInt8 → Except String α}
  {operation : String} {status : StatusCode}

/-- **a success is too large, or is decoded as a whole** -/
theorem executeJson_success (hstatus : status.isSuccess = true) (chunks : List (List UInt8)) :
    executeJson texts fromSlice operation (.ok ⟨status, chunks.map .ok⟩) =
      some (if maxSuccessBodyBytes < chunks.flatten.length then
          .error (.responseTooLarge operation status maxSuccessBodyBytes)
        else (fromSlice chunks.flatten).mapError (.decode operation status)) := by
  simp only [executeJson, hstatus, Bool.not_true, Bool.false_eq_true, if_false, readLimited_ok]
  by_cases hlong : maxSuccessBodyBytes < chunks.flatten.length
  · rw [decide_eq_true hlong, if_pos hlong]
    rfl
  · rw [decide_eq_false hlong, if_neg hlong, List.take_of_length_le (Nat.not_lt.mp hlong)]
    rfl

end

end Syouyu
