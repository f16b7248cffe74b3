import Laic.Protocol.Message

/-! # Communication patterns

Message constructors of skill calls, streams and topics on top of `Message.new`.  `none`
is its panic. -/

namespace Laic

def MsgType.skillRequest : MsgType := ⟨0x0010⟩
def MsgType.skillResponse : MsgType := ⟨0x0011⟩
def MsgType.streamData : MsgType := ⟨0x0020⟩
def MsgType.topicPublish : MsgType := ⟨0x0030⟩

def isSkillRequest (message : Message) : Bool := message.msgType == .skillRequest

def skillRequest (msgId : UInt64) (format : PayloadFormat) (qos : Qos) (payload : List UInt8) :
    Option Message :=
  Message.new .skillRequest msgId format qos payload

/-- A response to `request`, correlated by the id of the request. -/
def skillResponse (request : Message) (responseId : UInt64) (format : PayloadFormat) (qos : Qos)
    (payload : List UInt8) : Option (Except LaicError Message) :=
  if isSkillRequest request then
    (Message.new .skillResponse responseId format qos payload).map fun message =>
      .ok (message.setCorrelationId request.header.msgId)
  else
    some (.error (.protocol
      (.unexpectedMessageType MsgType.skillRequest.asU16 request.msgType.asU16)))

def streamChunk (msgId : UInt64) (format : PayloadFormat) (qos : Qos) (payload : List UInt8)
    (isLast : Bool) : Option Message :=
  (Message.new .streamData msgId format qos payload).map fun message =>
    if isLast then message.setEndOfStream else message

def topicPublish (msgId : UInt64) (format : PayloadFormat) (qos : Qos) (payload : List UInt8) :
    Option Message :=
  Message.new .topicPublish msgId format qos payload

end Laic
