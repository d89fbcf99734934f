import Mathlib.Data.List.Basic

/-!
# Arguments of a callback

The arguments of a callback request, and the parsing of a response to it. Parsing takes the
references to the objects that the response returns; on failure it puts them back.
-/

namespace VendorModules.Smci

/-- `struct si_object *`, as `typeof_si_object` tells them apart. -/
inductive Object
  | null
  /-- `SI_OT_USER`: an object of the secure world, in the `private_data` of a file. -/
  | user (n : Nat)
  /-- `SI_OT_CB_OBJECT`: a callback object or a memory object. -/
  | callback (n : Nat)
  deriving DecidableEq

namespace Object

/-- The references that `get_si_object_from_u_handle` returns the object with: for the secure world
and for the driver itself, except for an `SI_OT_USER`. -/
def gotten : Object → List Object
  | null => []
  | user n => [user n]
  | callback n => [callback n, callback n]

/-- `put_si_object` -/
def put : Object → List Object
  | null => []
  | user n => [user n]
  | callback n => [callback n]

/-- `if (typeof_si_object(o) != SI_OT_USER) put_si_object(o)` -/
def putUnlessUser : Object → List Object
  | user _ => []
  | o => o.put

theorem putUnlessUser_append_put (o : Object) : o.putUnlessUser ++ o.put = o.gotten := by
  cases o <;> rfl

end Object

/-- `struct si_arg []`: input buffers, output buffers, input objects, output objects, in this order.
Of a buffer there is its size. -/
structure Args where
  ib : List Nat := []
  ob : List Nat := []
  io : List Object := []
  oo : List Object := []

/-- `union smcinvoke_arg` as copied from the server: what it says read as a buffer, and what it says
read as an object. -/
structure UArg where
  size : Nat
  /-- `copy_from_user` from the address succeeds. -/
  readable : Bool
  /-- What `get_si_object_from_u_handle` finds. -/
  object : Option Object

def gotten (objects : List Object) : List Object := objects.flatMap Object.gotten

/-- Undoes `marshal_out_cb_req`. -/
def putAll (objects : List Object) : List Object :=
  objects.flatMap fun o => o.putUnlessUser ++ o.put

@[simp] theorem putAll_eq (objects : List Object) : putAll objects = gotten objects := by
  unfold putAll gotten
  congr 1
  funext o
  exact o.putUnlessUser_append_put

def readBuffers : List Nat → (Nat → UArg) → List Nat × Bool
  | [], _ => ([], true)
  | size :: sizes, args =>
    if (args 0).size ≤ size then
      if (args 0).readable then
        let rest := readBuffers sizes fun i => args (i + 1)
        ((args 0).size :: rest.1, rest.2)
      else ((args 0).size :: sizes, false)
    else (size :: sizes, false)

/-- The loop over the output objects, `failed` once one has not been found. -/
def takeObjects (failed : Bool) : List Object → (Nat → UArg) → List Object × Bool
  | [], _ => ([], failed)
  | _ :: objects, args =>
    match if failed then none else (args 0).object with
    | none =>
      let rest := takeObjects true objects fun i => args (i + 1)
      (.null :: rest.1, rest.2)
    | some o =>
      let rest := takeObjects false objects fun i => args (i + 1)
      (o :: rest.1, rest.2)

structure MarshalOut where
  args : Args
  failed : Bool
  taken : List Object := []
  released : List Object := []

namespace MarshalOut

def ofObjects (u : Args) (objects : List Object × Bool) : MarshalOut where
  args := { u with oo := objects.1 }
  failed := objects.2
  taken := gotten objects.1
  released := if objects.2 then putAll objects.1 else []

def kept (out : MarshalOut) : List Object := if out.failed then [] else gotten out.args.oo

theorem ofObjects_taken (u : Args) (objects : List Object × Bool) :
    (ofObjects u objects).taken = (ofObjects u objects).released ++ (ofObjects u objects).kept := by
  unfold kept ofObjects
  cases objects.2 with
  | true => simp
  | false => simp

end MarshalOut

/-- The entries of `args` are addressed by their place in the whole array. -/
def marshalOutCbReq (u : Args) (args : Nat → UArg) : MarshalOut :=
  let buffers := readBuffers u.ob fun i => args (u.ib.length + i)
  let u := { u with ob := buffers.1 }
  if buffers.2 then
    .ofObjects u
      (takeObjects false u.oo fun i => args (u.ib.length + u.ob.length + u.io.length + i))
  else { args := u, failed := true }

theorem marshalOutCbReq_taken (u : Args) (args : Nat → UArg) :
    (marshalOutCbReq u args).taken =
      (marshalOutCbReq u args).released ++ (marshalOutCbReq u args).kept := by
  unfold marshalOutCbReq
  dsimp only
  split
  · exact MarshalOut.ofObjects_taken ..
  · rfl

theorem marshalOutCbReq_oo {u : Args} (args : Nat → UArg) (none : u.oo = []) :
    (marshalOutCbReq u args).args.oo = [] := by
  unfold marshalOutCbReq
  dsimp only
  split
  · simp [none, MarshalOut.ofObjects, takeObjects]
  · exact none

end VendorModules.Smci
