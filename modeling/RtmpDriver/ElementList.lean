import RtmpDriver.ByteMemory

/-! Elements in a list of bytes: an identifier, the length of the body in one byte, and the body. `Elements good bytes`
says that `bytes` is a sequence of whole elements, each of which is `good`. -/
namespace RtmpDriver.ElementList
open ByteMemory List

def element (id : UInt8) (body : List UInt8) : List UInt8 := id :: UInt8.ofNat body.length :: body

inductive Elements (good : UInt8 → List UInt8 → Prop) : List UInt8 → Prop where
  | nil : Elements good []
  | cons {id body rest} (short : body.length < 256) (ok : good id body) (tail : Elements good rest) :
      Elements good (element id body ++ rest)

variable {good other : UInt8 → List UInt8 → Prop} {id : UInt8} {body rest bytes : List UInt8}

@[simp] theorem elementLength : (element id body).length = body.length + 2 := rfl

theorem elementInj {id' body' rest'} (short : body.length < 256) (short' : body'.length < 256)
    (same : element id body ++ rest = element id' body' ++ rest') : id = id' ∧ body = body' ∧ rest = rest' := by
  simp only [element,cons_append,cons.injEq] at same
  obtain ⟨ids,lengths,bodies⟩ := same
  have size : body.length = body'.length := by
    have values := congrArg UInt8.toNat lengths
    simp only [UInt8.toNat_ofNat'] at values
    omega
  exact ⟨ids,append_inj bodies size⟩

theorem elementsCons (short : body.length < 256) :
    Elements good (element id body ++ rest) ↔ good id body ∧ Elements good rest := by
  refine ⟨fun whole => ?_,fun ⟨ok,tail⟩ => .cons short ok tail⟩
  generalize same : element id body ++ rest = bytes at whole
  cases whole with
  | nil => exact absurd same (by simp [element])
  | cons short' ok tail =>
    obtain ⟨rfl,rfl,rfl⟩ := elementInj short short' same
    exact ⟨ok,tail⟩

theorem elementsFlatMap {ι : Type} {ids : ι → UInt8} {bodies : ι → List UInt8} (short : ∀ i, (bodies i).length < 256)
    (places : List ι) : Elements good (places.flatMap (fun i => element (ids i) (bodies i)) ++ rest) ↔
      (∀ i ∈ places, good (ids i) (bodies i)) ∧ Elements good rest := by
  induction places with
  | nil => simp
  | cons i places ih =>
    rw [flatMap_cons,append_assoc,elementsCons (short i),ih,forall_mem_cons,and_assoc]

theorem Elements.mono (elements : Elements good bytes) (weaker : ∀ id body, good id body → other id body) :
    Elements other bytes := by
  induction elements with
  | nil => exact .nil
  | cons short ok _ ih => exact .cons short (weaker _ _ ok) ih

theorem holdsElement {mem p} (short : body.length < 256) (holds : Holds mem p (element id body ++ rest)) :
    mem p = id ∧ (mem (p + 1)).toNat = body.length ∧ Holds mem (p + 2) body ∧
      Holds mem (p + (body.length + 2)) rest := by
  obtain ⟨head,tail⟩ := holdsAppend.mp holds
  have size : mem (p + 1) = UInt8.ofNat body.length := (Option.some.inj (head.get (k := 1) (by simp))).symm
  obtain ⟨_,inner⟩ := (holdsAppend (b := [id,UInt8.ofNat body.length])).mp head
  refine ⟨(Option.some.inj (head.get (k := 0) (by simp))).symm,?_,inner,tail⟩
  rw [size,UInt8.toNat_ofNat']
  omega

end RtmpDriver.ElementList
