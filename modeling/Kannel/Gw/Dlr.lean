import Kannel.Gw.MetaData
import Kannel.Gw.SmsSplit

/-!
# Delivery reports

`dlr_add` remembers a message until the SMSC reports on it; `dlr_find` makes the report and
drops the entry when no further one is expected.
-/

namespace Kannel

def dlrFlags (dlr : Int) : BitVec 32 := BitVec.ofInt 32 dlr

def dlrIsNotFinal (dlr : Int) : Bool := dlr ≠ -1 ∧ dlrFlags dlr &&& 0x0C ≠ 0

def dlrIsSuccessOrFail (dlr : Int) : Bool := dlr ≠ -1 ∧ dlrFlags dlr &&& 0x63 ≠ 0

structure DlrEntry where
  smsc : Octstr
  timestamp : Octstr
  source : Octstr
  destination : Octstr
  service : Octstr
  url : Octstr
  boxcId : Octstr
  mask : Int
  useDst : Bool
  deriving DecidableEq

def dlrEntryDuplicate (dlr : DlrEntry) : DlrEntry := { dlr with useDst := false }

structure DlrStorage (σ : Type) where
  add : σ → DlrEntry → σ
  get : σ → (smsc ts : Octstr) → (dst : Option Octstr) → Option DlrEntry
  remove : σ → (smsc ts : Octstr) → (dst : Option Octstr) → σ
  update : σ → (smsc ts : Octstr) → (dst : Option Octstr) → (status : Int) → σ

/-- The entry that `dlr_add` stores, if it stores one. -/
def dlrEntryOf (smsc : Octstr) (ts : Option Octstr) (msg : Sms) (useDst : Bool) : Option DlrEntry :=
  if smsc.length = 0 then none
  else if ¬ dlrIsEnabled msg.dlrMask then none
  else some
    { smsc := smsc
      timestamp := ts.getD []
      source := msg.sender.getD []
      destination := msg.receiver.getD []
      service := msg.service.getD []
      url := msg.dlrUrl.getD []
      boxcId := msg.boxcId.getD []
      mask := toInt msg.dlrMask
      useDst := useDst }

def minDstLen : Nat := 7

def dlrDstMin (dst : Option Octstr) (useDst : Bool) : Option Octstr :=
  if useDst then
    dst.map fun dst => if dst.length > minDstLen then dst.drop (dst.length - minDstLen) else dst
  else none

def oSet (val : Octstr) : Option Octstr := if val.length > 0 then some val else none

def metadataOrigMsgGroup : CString := ⟨ascii "orig_msg", by decide⟩

def dlrReport (dlr : DlrEntry) (ts : Octstr) (typ : Int) (id : Uuid) (now : Int) : Option Sms :=
  if 0 < (dlrFlags typ &&& dlrFlags dlr.mask).toInt then
    some
      { smsCreate id with
        smsType := reportMo
        dlrMask := typ
        service := oSet dlr.service
        smscId := oSet dlr.smsc
        receiver := oSet dlr.destination
        sender := oSet dlr.source
        dlrUrl := oSet dlr.url
        foreignId := some ts
        msgdata := none
        boxcId := oSet dlr.boxcId
        metaData := some (metaDataSetValue [] metadataOrigMsgGroup (ascii "dlr_mask")
          (formatDecimal dlr.mask) true).2
        time := now }
  else none

def dlrStillWaiting (typ mask : Int) : Bool := dlrIsNotFinal typ && dlrIsSuccessOrFail mask

def dlrSettle {σ : Type} (handles : DlrStorage σ) (s : σ) (smsc ts : Octstr)
    (dstMin : Option Octstr) (typ : Int) (dlr : DlrEntry) : σ :=
  if dlrStillWaiting typ dlr.mask then handles.update s smsc ts dstMin typ
  else handles.remove s smsc ts dstMin

def dlrFind {σ : Type} (handles : DlrStorage σ) (s : σ) (smsc ts : Octstr) (dst : Option Octstr)
    (typ : Int) (useDst : Bool) (id : Uuid) (now : Int) : Option Sms × σ :=
  if smsc.length = 0 then (none, s)
  else
    let dstMin := dlrDstMin dst useDst
    match handles.get s smsc ts dstMin with
    | none => (none, s)
    | some dlr => (dlrReport dlr ts typ id now, dlrSettle handles s smsc ts dstMin typ dlr)

end Kannel
