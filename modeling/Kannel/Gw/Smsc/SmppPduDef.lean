import Kannel.Gwlib.Dict

/-!
# The layout of SMPP PDUs

The mandatory fields and optional parameters of every PDU, and their tags. A layout is a list of
items, a PDU a value for each name.
-/

namespace Kannel

inductive IntField
  | commandId | commandStatus | sequenceNumber | interfaceVersion | addrTon | addrNpi
  | sourceAddrTon | sourceAddrNpi | destAddrTon | destAddrNpi | esmClass | protocolId
  | priorityFlag | registeredDelivery | replaceIfPresentFlag | dataCoding | smDefaultMsgId
  | smLength | numberOfDests | noUnsuccess | messageState | errorCode | esmeAddrTon | esmeAddrNpi
  deriving DecidableEq, Repr

inductive StrField
  | systemId | password | systemType | addressRange | serviceType | sourceAddr
  | destinationAddr | scheduleDeliveryTime | validityPeriod | shortMessage | messageId
  | destAddressEs | finalDate | esmeAddr
  deriving DecidableEq, Repr

inductive TlvInt
  | scInterfaceVersion | userMessageReference | sourcePort | sourceAddrSubunit
  | destinationPort | destAddrSubunit | sarMsgRefNum | sarTotalSegments | sarSegmentSeqnum
  | moreMessagesToSend | payloadType | privacyIndicator | callbackNumPresInd | userResponseCode
  | displayTime | smsSignal | msValidity | msMsgWaitFacilities | numberOfMessages
  | alertOnMessageDelivery | languageIndicator | itsReplyType | destAddrNpCountry
  | destAddrNpResolution | destBearerType | destNetworkType | destTelematicsId | qosTimeToLive
  | setDpf | sourceBearerType | sourceNetworkType | sourceTelematicsId | deliveryFailureReason
  | dpfResult | messageState | msAvailabilityStatus | broadcastChannelIndicator
  | broadcastMessageClass | broadcastErrorStatus | broadcastAreaSuccess
  deriving DecidableEq, Repr

inductive TlvStr
  | messagePayload | callbackNum | callbackNumAtag | sourceSubaddress | destSubaddress
  | itsSessionInfo | ussdServiceOp | billingIdentification | destAddrNpInformation
  | destNetworkId | destNodeId | sourceNetworkId | sourceNodeId | additionalStatusInfoText
  | networkErrorCode | receiptedMessageId | broadcastAreaIdentifier | broadcastContentType
  | broadcastRepNum | broadcastFrequencyInterval | broadcastContentTypeInfo
  | broadcastServiceGroup | failedBroadcastAreaIdentifier | broadcastEndTime
  deriving DecidableEq, Repr

inductive Mandatory
  | integer (name : IntField) (octets : Nat)
  | nulterminated (name : StrField) (maxOctets : Nat)
  | octets (name : StrField) (fieldGivingOctets : IntField)
  deriving DecidableEq, Repr

inductive Optional
  | integer (name : TlvInt) (octets : Nat)
  | nulterminated (name : TlvStr) (maxLen : Nat)
  | octets (name : TlvStr) (minLen maxLen : Nat)
  deriving DecidableEq, Repr

inductive PduType
  | bindTransmitter | bindTransmitterResp | bindReceiver | bindReceiverResp | bindTransceiver
  | bindTransceiverResp | outbind | unbind | unbindResp | genericNack | submitSm | submitSmResp
  | submitMulti | submitMultiResp | deliverSm | deliverSmResp | dataSm | dataSmResp | querySm
  | querySmResp | cancelSm | cancelSmResp | replaceSm | replaceSmResp | enquireLink
  | enquireLinkResp | alertNotification | broadcastSm | broadcastSmResp | queryBroadcastSm
  | queryBroadcastSmResp | cancelBroadcastSm | cancelBroadcastSmResp
  deriving DecidableEq, Repr

def PduType.id : PduType → Nat
  | .bindTransmitter => 0x00000002
  | .bindTransmitterResp => 0x80000002
  | .bindReceiver => 0x00000001
  | .bindReceiverResp => 0x80000001
  | .bindTransceiver => 0x00000009
  | .bindTransceiverResp => 0x80000009
  | .outbind => 0x0000000B
  | .unbind => 0x00000006
  | .unbindResp => 0x80000006
  | .genericNack => 0x80000000
  | .submitSm => 0x00000004
  | .submitSmResp => 0x80000004
  | .submitMulti => 0x00000021
  | .submitMultiResp => 0x80000021
  | .deliverSm => 0x00000005
  | .deliverSmResp => 0x80000005
  | .dataSm => 0x00000103
  | .dataSmResp => 0x80000103
  | .querySm => 0x00000003
  | .querySmResp => 0x80000003
  | .cancelSm => 0x00000008
  | .cancelSmResp => 0x80000008
  | .replaceSm => 0x00000007
  | .replaceSmResp => 0x80000007
  | .enquireLink => 0x00000015
  | .enquireLinkResp => 0x80000015
  | .alertNotification => 0x00000102
  | .broadcastSm => 0x00000111
  | .broadcastSmResp => 0x80000111
  | .queryBroadcastSm => 0x00000112
  | .queryBroadcastSmResp => 0x80000112
  | .cancelBroadcastSm => 0x00000113
  | .cancelBroadcastSmResp => 0x80000113

def TlvInt.tag : TlvInt → Nat
  | .scInterfaceVersion => 0x0210
  | .userMessageReference => 0x0204
  | .sourcePort => 0x020A
  | .sourceAddrSubunit => 0x000D
  | .destinationPort => 0x020B
  | .destAddrSubunit => 0x0005
  | .sarMsgRefNum => 0x020C
  | .sarTotalSegments => 0x020E
  | .sarSegmentSeqnum => 0x020F
  | .moreMessagesToSend => 0x0426
  | .payloadType => 0x0019
  | .privacyIndicator => 0x0201
  | .callbackNumPresInd => 0x0302
  | .userResponseCode => 0x0205
  | .displayTime => 0x1201
  | .smsSignal => 0x1203
  | .msValidity => 0x1204
  | .msMsgWaitFacilities => 0x0030
  | .numberOfMessages => 0x0304
  | .alertOnMessageDelivery => 0x130C
  | .languageIndicator => 0x020D
  | .itsReplyType => 0x1380
  | .destAddrNpCountry => 0x0613
  | .destAddrNpResolution => 0x0611
  | .destBearerType => 0x0007
  | .destNetworkType => 0x0006
  | .destTelematicsId => 0x0008
  | .qosTimeToLive => 0x0017
  | .setDpf => 0x0421
  | .sourceBearerType => 0x000F
  | .sourceNetworkType => 0x000E
  | .sourceTelematicsId => 0x0010
  | .deliveryFailureReason => 0x0425
  | .dpfResult => 0x0420
  | .messageState => 0x0427
  | .msAvailabilityStatus => 0x0422
  | .broadcastChannelIndicator => 0x0600
  | .broadcastMessageClass => 0x0603
  | .broadcastErrorStatus => 0x0607
  | .broadcastAreaSuccess => 0x0608

def TlvStr.tag : TlvStr → Nat
  | .messagePayload => 0x0424
  | .callbackNum => 0x0381
  | .callbackNumAtag => 0x0303
  | .sourceSubaddress => 0x0202
  | .destSubaddress => 0x0203
  | .itsSessionInfo => 0x1383
  | .ussdServiceOp => 0x0501
  | .billingIdentification => 0x060B
  | .destAddrNpInformation => 0x0612
  | .destNetworkId => 0x060E
  | .destNodeId => 0x0610
  | .sourceNetworkId => 0x060D
  | .sourceNodeId => 0x060F
  | .additionalStatusInfoText => 0x001D
  | .networkErrorCode => 0x0423
  | .receiptedMessageId => 0x001E
  | .broadcastAreaIdentifier => 0x0606
  | .broadcastContentType => 0x0601
  | .broadcastRepNum => 0x0604
  | .broadcastFrequencyInterval => 0x0605
  | .broadcastContentTypeInfo => 0x0602
  | .broadcastServiceGroup => 0x060A
  | .failedBroadcastAreaIdentifier => 0x0606
  | .broadcastEndTime => 0x0609

def Optional.tag : Optional → Nat
  | .integer name _ => name.tag
  | .nulterminated name _ => name.tag
  | .octets name _ _ => name.tag

def headerFields : List Mandatory :=
  [.integer .commandId 4, .integer .commandStatus 4, .integer .sequenceNumber 4]

def PduType.body : PduType → List Mandatory
  | .bindTransmitter | .bindReceiver | .bindTransceiver =>
    [.nulterminated .systemId 16, .nulterminated .password 9, .nulterminated .systemType 13,
      .integer .interfaceVersion 1, .integer .addrTon 1, .integer .addrNpi 1,
      .nulterminated .addressRange 41]
  | .bindTransmitterResp | .bindReceiverResp | .bindTransceiverResp => [.nulterminated .systemId 16]
  | .outbind => [.nulterminated .systemId 16, .nulterminated .password 9]
  | .unbind | .unbindResp | .genericNack | .cancelSmResp | .replaceSmResp | .enquireLink
  | .enquireLinkResp | .cancelBroadcastSmResp =>
    []
  | .submitSm | .deliverSm =>
    [.nulterminated .serviceType 6, .integer .sourceAddrTon 1, .integer .sourceAddrNpi 1,
      .nulterminated .sourceAddr 21, .integer .destAddrTon 1, .integer .destAddrNpi 1,
      .nulterminated .destinationAddr 21, .integer .esmClass 1, .integer .protocolId 1,
      .integer .priorityFlag 1, .nulterminated .scheduleDeliveryTime 17,
      .nulterminated .validityPeriod 17, .integer .registeredDelivery 1,
      .integer .replaceIfPresentFlag 1, .integer .dataCoding 1, .integer .smDefaultMsgId 1,
      .integer .smLength 1, .octets .shortMessage .smLength]
  | .submitSmResp | .dataSmResp | .broadcastSmResp | .queryBroadcastSmResp =>
    [.nulterminated .messageId 65]
  | .submitMulti =>
    [.nulterminated .serviceType 6, .integer .sourceAddrTon 1, .integer .sourceAddrNpi 1,
      .nulterminated .sourceAddr 21, .integer .numberOfDests 1,
      .nulterminated .destAddressEs (254 * 24), .integer .esmClass 1, .integer .protocolId 1,
      .integer .priorityFlag 1, .nulterminated .scheduleDeliveryTime 17,
      .nulterminated .validityPeriod 17, .integer .registeredDelivery 1,
      .integer .replaceIfPresentFlag 1, .integer .dataCoding 1, .integer .smDefaultMsgId 1,
      .integer .smLength 1, .octets .shortMessage .smLength]
  | .submitMultiResp => [.nulterminated .messageId 65, .integer .noUnsuccess 1]
  | .deliverSmResp => [.nulterminated .messageId 1]
  | .dataSm =>
    [.nulterminated .serviceType 6, .integer .sourceAddrTon 1, .integer .sourceAddrNpi 1,
      .nulterminated .sourceAddr 65, .integer .destAddrTon 1, .integer .destAddrNpi 1,
      .nulterminated .destinationAddr 65, .integer .esmClass 1, .integer .registeredDelivery 1,
      .integer .dataCoding 1]
  | .querySm | .queryBroadcastSm =>
    [.nulterminated .messageId 65, .integer .sourceAddrTon 1, .integer .sourceAddrNpi 1,
      .nulterminated .sourceAddr 21]
  | .querySmResp =>
    [.nulterminated .messageId 65, .nulterminated .finalDate 17, .integer .messageState 1,
      .integer .errorCode 1]
  | .cancelSm =>
    [.nulterminated .serviceType 6, .nulterminated .messageId 65, .integer .sourceAddrTon 1,
      .integer .sourceAddrNpi 1, .nulterminated .sourceAddr 21, .integer .destAddrTon 1,
      .integer .destAddrNpi 1, .nulterminated .destinationAddr 65]
  | .replaceSm =>
    [.nulterminated .serviceType 6, .nulterminated .messageId 65, .integer .sourceAddrTon 1,
      .integer .sourceAddrNpi 1, .nulterminated .sourceAddr 21,
      .nulterminated .scheduleDeliveryTime 17, .nulterminated .validityPeriod 17,
      .integer .registeredDelivery 1, .integer .smDefaultMsgId 1, .integer .smLength 1,
      .octets .shortMessage .smLength]
  | .alertNotification =>
    [.integer .sourceAddrTon 1, .integer .sourceAddrNpi 1, .nulterminated .sourceAddr 21,
      .integer .esmeAddrTon 1, .integer .esmeAddrNpi 1, .nulterminated .esmeAddr 65]
  | .broadcastSm =>
    [.nulterminated .serviceType 6, .integer .sourceAddrTon 1, .integer .sourceAddrNpi 1,
      .nulterminated .sourceAddr 21, .nulterminated .messageId 65, .integer .priorityFlag 1,
      .nulterminated .scheduleDeliveryTime 17, .nulterminated .validityPeriod 17,
      .integer .registeredDelivery 1, .integer .replaceIfPresentFlag 1, .integer .dataCoding 1,
      .integer .smDefaultMsgId 1]
  | .cancelBroadcastSm =>
    [.nulterminated .serviceType 6, .nulterminated .messageId 65, .integer .sourceAddrTon 1,
      .integer .sourceAddrNpi 1, .nulterminated .sourceAddr 21]

def PduType.mandatory (t : PduType) : List Mandatory := headerFields ++ t.body

def PduType.optional : PduType → Option (List Optional)
  | .bindTransmitter | .bindReceiver | .bindTransceiver | .outbind | .unbind | .unbindResp
  | .genericNack | .querySm | .querySmResp | .cancelSm | .cancelSmResp | .replaceSmResp
  | .enquireLink | .enquireLinkResp | .cancelBroadcastSmResp =>
    none
  | .bindTransmitterResp | .bindReceiverResp | .bindTransceiverResp =>
    some [.integer .scInterfaceVersion 1]
  | .submitSm =>
    some [.integer .userMessageReference 2, .integer .sourcePort 2,
      .integer .sourceAddrSubunit 1, .integer .destinationPort 2, .integer .destAddrSubunit 1,
      .integer .sarMsgRefNum 2, .integer .sarTotalSegments 1, .integer .sarSegmentSeqnum 1,
      .integer .moreMessagesToSend 1, .integer .payloadType 1, .octets .messagePayload 0 65536,
      .integer .privacyIndicator 1, .octets .callbackNum 4 19, .integer .callbackNumPresInd 1,
      .octets .callbackNumAtag 0 65, .octets .sourceSubaddress 2 23,
      .octets .destSubaddress 2 23, .integer .userResponseCode 1, .integer .displayTime 1,
      .integer .smsSignal 2, .integer .msValidity 1, .integer .msMsgWaitFacilities 1,
      .integer .numberOfMessages 1, .integer .alertOnMessageDelivery 0,
      .integer .languageIndicator 1, .integer .itsReplyType 1, .octets .itsSessionInfo 2 2,
      .octets .ussdServiceOp 1 1, .octets .billingIdentification 1 1024,
      .integer .destAddrNpCountry 5, .octets .destAddrNpInformation 10 10,
      .integer .destAddrNpResolution 1, .integer .destBearerType 1,
      .nulterminated .destNetworkId 65, .integer .destNetworkType 1, .octets .destNodeId 6 6,
      .integer .destTelematicsId 2, .integer .qosTimeToLive 4, .integer .setDpf 1,
      .integer .sourceBearerType 1, .nulterminated .sourceNetworkId 65,
      .integer .sourceNetworkType 1, .octets .sourceNodeId 6 6, .integer .sourceTelematicsId 1]
  | .submitSmResp | .submitMultiResp | .dataSmResp =>
    some [.nulterminated .additionalStatusInfoText 256, .integer .deliveryFailureReason 1,
      .integer .dpfResult 1, .octets .networkErrorCode 3 3]
  | .submitMulti =>
    some [.integer .userMessageReference 2, .integer .sourcePort 2,
      .integer .sourceAddrSubunit 1, .integer .destinationPort 2, .integer .destAddrSubunit 1,
      .integer .sarMsgRefNum 2, .integer .sarTotalSegments 1, .integer .sarSegmentSeqnum 1,
      .integer .payloadType 1, .octets .messagePayload 0 65536, .integer .privacyIndicator 1,
      .octets .callbackNum 4 19, .integer .callbackNumPresInd 1, .octets .callbackNumAtag 0 65,
      .octets .sourceSubaddress 2 23, .octets .destSubaddress 2 23, .integer .displayTime 1,
      .integer .smsSignal 2, .integer .msValidity 1, .integer .msMsgWaitFacilities 1,
      .integer .alertOnMessageDelivery 0, .integer .languageIndicator 1,
      .octets .billingIdentification 1 1024, .integer .destAddrNpCountry 5,
      .octets .destAddrNpInformation 10 10, .integer .destAddrNpResolution 1,
      .integer .destBearerType 1, .nulterminated .destNetworkId 65,
      .integer .destNetworkType 1, .octets .destNodeId 6 6, .integer .destTelematicsId 2,
      .integer .itsReplyType 1, .octets .itsSessionInfo 2 2, .integer .moreMessagesToSend 1,
      .integer .numberOfMessages 1, .integer .qosTimeToLive 4, .integer .setDpf 1,
      .integer .sourceBearerType 1, .nulterminated .sourceNetworkId 65,
      .integer .sourceNetworkType 1, .octets .sourceNodeId 6 6, .integer .sourceTelematicsId 1,
      .integer .userResponseCode 1]
  | .deliverSm =>
    some [.integer .userMessageReference 2, .integer .sourcePort 2,
      .integer .destinationPort 2, .integer .sarMsgRefNum 2, .integer .sarTotalSegments 1,
      .integer .sarSegmentSeqnum 1, .integer .userResponseCode 1, .integer .privacyIndicator 1,
      .integer .payloadType 1, .octets .messagePayload 0 65536, .octets .callbackNum 4 19,
      .octets .sourceSubaddress 2 23, .octets .destSubaddress 2 23,
      .integer .languageIndicator 1, .octets .itsSessionInfo 2 2,
      .octets .networkErrorCode 3 3, .integer .messageState 1,
      .nulterminated .receiptedMessageId 65, .octets .callbackNumAtag 0 65,
      .integer .callbackNumPresInd 1, .integer .destAddrNpCountry 5,
      .octets .destAddrNpInformation 10 10, .integer .destAddrNpResolution 1,
      .integer .destAddrSubunit 1, .nulterminated .destNetworkId 65, .integer .dpfResult 1,
      .integer .itsReplyType 1, .integer .sourceAddrSubunit 1,
      .nulterminated .sourceNetworkId 65, .octets .sourceNodeId 6 6,
      .octets .ussdServiceOp 1 1]
  | .deliverSmResp =>
    some [.nulterminated .additionalStatusInfoText 256, .integer .deliveryFailureReason 1,
      .octets .networkErrorCode 3 3]
  | .dataSm =>
    some [.integer .sourcePort 2, .integer .sourceAddrSubunit 1, .integer .sourceNetworkType 1,
      .integer .sourceBearerType 1, .integer .sourceTelematicsId 1,
      .integer .destinationPort 2, .integer .destAddrSubunit 1, .integer .destNetworkType 1,
      .integer .destBearerType 1, .integer .destTelematicsId 2, .integer .sarMsgRefNum 2,
      .integer .sarTotalSegments 1, .integer .sarSegmentSeqnum 1,
      .integer .moreMessagesToSend 1, .integer .qosTimeToLive 4, .integer .payloadType 1,
      .octets .messagePayload 0 65536, .integer .setDpf 1,
      .nulterminated .receiptedMessageId 65, .integer .messageState 1,
      .octets .networkErrorCode 3 3, .integer .userMessageReference 2,
      .integer .privacyIndicator 1, .octets .callbackNum 4 19, .integer .callbackNumPresInd 1,
      .octets .callbackNumAtag 0 65, .octets .sourceSubaddress 2 23,
      .octets .destSubaddress 2 23, .integer .userResponseCode 1, .integer .displayTime 1,
      .integer .smsSignal 2, .integer .msValidity 1, .integer .msMsgWaitFacilities 1,
      .integer .numberOfMessages 1, .integer .alertOnMessageDelivery 0,
      .integer .languageIndicator 1, .integer .itsReplyType 1, .octets .itsSessionInfo 2 2,
      .octets .billingIdentification 1 1024, .integer .destAddrNpCountry 5,
      .octets .destAddrNpInformation 10 10, .integer .destAddrNpResolution 1,
      .nulterminated .destNetworkId 65, .octets .destNodeId 6 6,
      .nulterminated .sourceNetworkId 65, .octets .sourceNodeId 6 6,
      .octets .ussdServiceOp 1 1]
  | .replaceSm => some [.octets .messagePayload 0 65536]
  | .alertNotification => some [.integer .msAvailabilityStatus 1]
  | .broadcastSm =>
    some [.octets .broadcastAreaIdentifier 1 101, .octets .broadcastContentType 3 3,
      .octets .broadcastRepNum 3 3, .octets .broadcastFrequencyInterval 3 3,
      .integer .alertOnMessageDelivery 0, .integer .broadcastChannelIndicator 1,
      .octets .broadcastContentTypeInfo 1 254, .integer .broadcastMessageClass 1,
      .octets .broadcastServiceGroup 1 254, .octets .callbackNum 4 19,
      .octets .callbackNumAtag 0 65, .integer .callbackNumPresInd 1,
      .integer .destAddrSubunit 1, .octets .destSubaddress 2 23, .integer .destinationPort 2,
      .integer .displayTime 1, .integer .languageIndicator 1, .octets .messagePayload 0 65536,
      .integer .msValidity 1, .integer .payloadType 1, .integer .privacyIndicator 1,
      .integer .smsSignal 2, .integer .sourceAddrSubunit 1, .integer .sourcePort 2,
      .octets .sourceSubaddress 2 23, .integer .userMessageReference 2]
  | .broadcastSmResp =>
    some [.integer .broadcastErrorStatus 4, .octets .failedBroadcastAreaIdentifier 1 101]
  | .queryBroadcastSm => some [.integer .userMessageReference 2]
  | .queryBroadcastSmResp =>
    some [.integer .messageState 1, .octets .broadcastAreaIdentifier 1 101,
      .integer .broadcastAreaSuccess 1, .nulterminated .broadcastEndTime 16,
      .integer .userMessageReference 2]
  | .cancelBroadcastSm => some [.octets .broadcastContentType 3 3, .integer .userMessageReference 2]

def PduType.all : List PduType :=
  [.bindTransmitter, .bindTransmitterResp, .bindReceiver, .bindReceiverResp, .bindTransceiver,
   .bindTransceiverResp, .outbind, .unbind, .unbindResp, .genericNack, .submitSm, .submitSmResp,
   .submitMulti, .submitMultiResp, .deliverSm, .deliverSmResp, .dataSm, .dataSmResp, .querySm,
   .querySmResp, .cancelSm, .cancelSmResp, .replaceSm, .replaceSmResp, .enquireLink,
   .enquireLinkResp, .alertNotification, .broadcastSm, .broadcastSmResp, .queryBroadcastSm,
   .queryBroadcastSmResp, .cancelBroadcastSm, .cancelBroadcastSmResp]

def PduType.ofId (n : Nat) : Option PduType := PduType.all.find? (·.id = n)

def lengthsKnown : List IntField → List Mandatory → Bool
  | _, [] => true
  | known, .integer name _ :: ms => lengthsKnown (name :: known) ms
  | known, .nulterminated _ _ :: ms => lengthsKnown known ms
  | known, .octets _ name :: ms => known.contains name && lengthsKnown known ms

def Mandatory.lengthField : Mandatory → Option IntField
  | .octets _ name => some name
  | _ => none

def Mandatory.name : Mandatory → IntField ⊕ StrField
  | .integer name _ => .inl name
  | .nulterminated name _ => .inr name
  | .octets name _ => .inr name

def Mandatory.Sized : Mandatory → Prop
  | .integer _ width => width ≤ 4
  | .nulterminated _ maxOctets => 1 ≤ maxOctets ∧ maxOctets < 65536
  | .octets _ _ => True

def Optional.Sized : Optional → Prop
  | .integer _ width => width ≤ 5
  | .nulterminated _ maxLen => 1 ≤ maxLen ∧ maxLen < 65535
  | .octets _ _ maxLen => maxLen ≤ 65536

instance Mandatory.decidableSized : (m : Mandatory) → Decidable m.Sized
  | .integer _ width => inferInstanceAs (Decidable (width ≤ 4))
  | .nulterminated _ maxOctets => inferInstanceAs (Decidable (1 ≤ maxOctets ∧ maxOctets < 65536))
  | .octets _ _ => inferInstanceAs (Decidable True)

instance Optional.decidableSized : (o : Optional) → Decidable o.Sized
  | .integer _ width => inferInstanceAs (Decidable (width ≤ 5))
  | .nulterminated _ maxLen => inferInstanceAs (Decidable (1 ≤ maxLen ∧ maxLen < 65535))
  | .octets _ _ maxLen => inferInstanceAs (Decidable (maxLen ≤ 65536))

def PduType.options (t : PduType) : List Optional := t.optional.getD []

structure PduType.WellLaidOut (t : PduType) : Prop where
  lengthsKnown : lengthsKnown [] t.mandatory = true
  lengthFields : (t.mandatory.filterMap Mandatory.lengthField).Nodup
  lengthOctet : ∀ name ∈ t.mandatory.filterMap Mandatory.lengthField,
    name ≠ .commandId ∧ Mandatory.integer name 1 ∈ t.mandatory
  names : (t.mandatory.map Mandatory.name).Nodup
  mandatory : t.mandatory.length ≤ 32 ∧ ∀ m ∈ t.mandatory, m.Sized
  tags : (t.options.map Optional.tag).Nodup
  tag_lt : ∀ o ∈ t.options, o.tag < 65536
  options : t.options.length ≤ 64 ∧ ∀ o ∈ t.options, o.Sized

theorem PduType.wellLaidOut (t : PduType) : t.WellLaidOut := by
  cases t <;> exact
    ⟨by decide, by decide, by decide, by decide, by decide, by decide, by decide, by decide⟩

theorem PduType.ofId_id (t : PduType) : PduType.ofId t.id = some t := by
  cases t <;> rfl

end Kannel
