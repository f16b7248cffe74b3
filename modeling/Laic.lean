import Laic.Lib.LittleEndian
import Laic.Lib.Except
import Laic.Lib.BufferProgram
import Laic.Error
import Laic.Protocol.Constants
import Laic.Protocol.Header
import Laic.Protocol.HeaderCodec
import Laic.Lib.Async
import Laic.Lib.Medium
import Laic.Protocol.Message
import Laic.Lib.SlotBuffer
import Laic.Lib.SlotAccount
import Laic.Lib.SlotPort
import Laic.Transport.Ipc
import Laic.Transport.Emergency
import Laic.Lib.Duplex
import Laic.Transport.Framing
import Laic.Transport.Conversation
import Laic.Protocol.Pattern
import Laic.Lib.BitMask
import Laic.Transport.Produced
import Laic.Flow
import Laic.Transport.SharedMemory
import Laic.CreditLoss
import Laic.Transport.FrameStream
import Laic.Transport.Quic
import Laic.Gateway
import Laic.Transport.Facade
import Laic.GatewayLoss
import Laic.Transport.Lifecycle
import Laic.Lib.Polling
import Laic.Abandonment
import Laic.Lib.ProtoWire
import Laic.Handshake.Messages
import Laic.Handshake.Validate
import Laic.Handshake.Programs
import Laic.Handshake.ClientSoundness
import Laic.Handshake.Agreement
import Laic.Handshake.Session
import Laic.Handshake.ServerSoundness
import Laic.Handshake.Refusal
import Laic.Handshake.Freshness
import Laic.Lib.FloatFormat
import Laic.Lib.Peg
import Laic.Lib.PegReading
import Laic.Lib.PegPrinting
import Laic.Lib.LineEnding
import Laic.Lib.Text
import Laic.Lib.AssocList
import Laic.Lib.DoubleRounding
import Laic.Lib.DecimalText
import Laic.Lib.StringLiteral
import Laic.Lib.Scope
import Laic.Lib.IntegerText
import Laic.Lib.IntegerSyntax
import Laic.Idl.Ast
import Laic.Idl.Grammar
import Laic.Idl.Parser
import Laic.Idl.Validate
import Laic.Idl.Identifiers
import Laic.Idl.Syntax
import Laic.Idl.Lexical
import Laic.Idl.Reading
import Laic.Idl.Declarations
import Laic.Idl.LineEndings
import Laic.Lib.Arrow
import Laic.Lib.ArrowLanguages
import Laic.Codegen.Names
import Laic.Codegen.ErrorEnum
import Laic.Codegen.Metadata
import Laic.Codegen.Values
import Laic.Codegen.Literals
import Laic.Codegen.Escaping
import Laic.Codegen.RustTypes
import Laic.Codegen.RustSerialize
import Laic.Codegen.RustDeserialize
import Laic.Codegen.Python
import Laic.Codegen.Typescript
import Laic.Codegen.Inspect
import Laic.Codegen.TypeText
import Laic.Codegen.Contract
import Laic.Codegen.Totality
import Laic.Lib.ArrowReference
import Laic.Codegen.Cardinality
import Laic.Codegen.Shapes
import Laic.Codegen.ShapeTexts
import Laic.Codegen.Decoding
import Laic.Codegen.Entries
import Laic.Codegen.Readers
import Laic.Codegen.Writers
import Laic.Codegen.Defaults
import Laic.Codegen.DecoderNames
import Laic.Codegen.Hygiene
import Laic.Codegen.Programs
import Laic.Codegen.RoundTrip
import Laic.Codegen.FieldRefusals
import Laic.Codegen.Isolation
import Laic.Codegen.Evolution
import Laic.Codegen.Relay
import Laic.Codegen.TensorContract
import Laic.Codegen.FloatDefaults
import Laic.Idl.TypeLanguage
import Laic.Idl.WellFormed
import Laic.Lib.PegLayout
import Laic.Idl.Layout
import Laic.Idl.Language
import Laic.Idl.CrlfContract
