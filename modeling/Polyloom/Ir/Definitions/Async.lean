import Polyloom.Ir.Definition

/-!
Operations on asynchronous values, coroutines and their runtime.
-/

namespace Polyloom.OpDefinition

def asyncOps : List OpDefinition := inDialect "async" [
  of "AddToGroupOp" "add_to_group" [.one "operand", .one "group"] [.inferred "rank"],
  of "AwaitAllOp" "await_all" [.one "operand"],
  { of "AwaitOp" "await" [.one "operand"] [.maybe "result"] with constructible := false },
  of "CallOp" "call" [.attr "callee" "FlatSymbolRefAttr", .many "operands_"]
    [.unread (.many "result")],
  of "CoroBeginOp" "coro.begin" [.one "id"] [.inferred "handle"],
  of "CoroEndOp" "coro.end" [.one "handle"],
  of "CoroFreeOp" "coro.free" [.one "id", .one "handle"],
  of "CoroIdOp" "coro.id" [] [.inferred "id"],
  of "CoroSaveOp" "coro.save" [.one "handle"] [.inferred "state"],
  { of "CoroSuspendOp" "coro.suspend" [.one "state"] with
    successors := [("suspendDest", .one), ("resumeDest", .one), ("cleanupDest", .one)] },
  of "CreateGroupOp" "create_group" [.one "size"] [.inferred "result"],
  { of "ExecuteOp" "execute" [.many "dependencies", .many "bodyOperands"]
    [.one "token", .many "bodyResults"] with
    regions := ["bodyRegion"], segmented := true, constructible := false },
  { of "FuncOp" "func" [.symbol, .attr "function_type" "anonymous_399",
    .text? "sym_visibility", .attr? "arg_attrs" "DictArrayAttr",
    .attr? "res_attrs" "DictArrayAttr"] with regions := ["body"] },
  of "ReturnOp" "return" [.many "operands_"],
  of "RuntimeAddRefOp" "runtime.add_ref" [.one "operand",
    .attr "count" "I64Attr" (.mandatory "IntegerAttr")],
  of "RuntimeAddToGroupOp" "runtime.add_to_group" [.one "operand", .one "group"] [.inferred "rank"],
  of "RuntimeAwaitAndResumeOp" "runtime.await_and_resume" [.one "operand", .one "handle"],
  of "RuntimeAwaitOp" "runtime.await" [.one "operand"],
  of "RuntimeCreateGroupOp" "runtime.create_group" [.one "size"] [.inferred "result"],
  of "RuntimeCreateOp" "runtime.create" [] [.one "result"],
  of "RuntimeDropRefOp" "runtime.drop_ref" [.one "operand",
    .attr "count" "I64Attr" (.mandatory "IntegerAttr")],
  of "RuntimeIsErrorOp" "runtime.is_error" [.one "operand"] [.inferred "is_error"],
  of "RuntimeLoadOp" "runtime.load" [.one "storage"] [.inferred "result"],
  of "RuntimeNumWorkerThreadsOp" "runtime.num_worker_threads" [] [.inferred "result"],
  of "RuntimeResumeOp" "runtime.resume" [.one "handle"],
  of "RuntimeSetAvailableOp" "runtime.set_available" [.one "operand"],
  of "RuntimeSetErrorOp" "runtime.set_error" [.one "operand"],
  of "RuntimeStoreOp" "runtime.store" [.one "value", .one "storage"],
  of "YieldOp" "yield" [.many "operands_"]]

end Polyloom.OpDefinition
