import CometMock.RpcServer

/-!
The engine between calls. After startup (`NewAbciClient`, then `SendInitChain`) CometMock serves
calls one at a time against its one global `AbciClient`: the requests of the `rpc_server` routes,
and the engine's exported entry points and controls. A call that fails returns its error or panic
to its caller and leaves the engine as the failure found it; the next call starts from there.
-/

namespace CometMock

/-- A call to the running engine. -/
inductive Call where
  | rpc (now : Int) (route : RpcServer.Route)
  | runBlock (now : Int) (tx : Option Bytes)
  | runBlockWithEvidence (now : Int) (tx : Option Bytes)
      (misbehavingValidators : List (Validator × MisbehaviourType))
  | runEmptyBlocks (clock : Nat → Int) (numBlocks : Int)
  | causeDoubleSign (now : Int) (address : Bytes)
  | causeLightClientAttack (now : Int) (address : Bytes) (misbehaviourType : String)
  | setSigningStatus (address : Bytes) (status : Bool)
  | incrementTimeOffset (additionalOffset : Int)

namespace Call

/-- One call, its result dropped. `SetSigningStatus` and `IncrementTimeOffset` write the engine
only when they accept. -/
def run (env : Env) : Call → ClientM Unit
  | .rpc now route => do let _ ← RpcServer.serve env now route
  | .runBlock now tx => do let _ ← AbciClient.runBlock env now tx
  | .runBlockWithEvidence now tx misbehavingValidators => do
    let _ ← AbciClient.runBlockWithEvidence env now tx misbehavingValidators
  | .runEmptyBlocks clock numBlocks => AbciClient.runEmptyBlocks env clock numBlocks
  | .causeDoubleSign now address => AbciClient.causeDoubleSign env now address
  | .causeLightClientAttack now address misbehaviourType =>
    AbciClient.causeLightClientAttack env now address misbehaviourType
  | .setSigningStatus address status => do
    let a ← liftErr ((← getClient).setSigningStatus address status)
    modifyClient fun _ => a
  | .incrementTimeOffset additionalOffset => do
    let a ← liftErr ((← getClient).incrementTimeOffset additionalOffset)
    modifyClient fun _ => a

end Call

/-- The world after a session of calls, each made whatever the previous one returned. -/
def runSession (env : Env) : List Call → World → World
  | [], w => w
  | c :: cs, w => runSession env cs (finalWorld (c.run env w))

end CometMock
