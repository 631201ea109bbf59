import ProtoVscp.CheckedLoops
import ProtoVscp.SkipScan
import ProtoVscp.TagLength
import ProtoVscp.StringOps
import ProtoVscp.EventLoop
import ProtoVscp.SelfDelimiting
import ProtoVscp.Common
import ProtoVscp.M3UAmessage
import ProtoVscp.SccpMessage
import ProtoVscp.Asn1c
import ProtoVscp.DerEncoder
import ProtoVscp.BerTlv
import ProtoVscp.BerDecoder
import ProtoVscp.TcapTypes
import ProtoVscp.TcapMessage
import ProtoVscp.InapMessage
import ProtoVscp.MainLoop
import ProtoVscp.ServerRun
import ProtoVscp.DecodePayloadProofs
import ProtoVscp.M3uaFramingProofs
import ProtoVscp.EncodeMsgProofs
import ProtoVscp.SccpProofs
import ProtoVscp.UdtParameterProofs
import ProtoVscp.ParseNumProofs
import ProtoVscp.TcapProofs
import ProtoVscp.MainLoopProofs
import ProtoVscp.ReplyProofs
import ProtoVscp.InvokeIdProofs
import ProtoVscp.QueryProofs
import ProtoVscp.ReplySizeProofs
import ProtoVscp.ReceptionProofs
import ProtoVscp.ServerRunProofs
import ProtoVscp.FaultProofs
import ProtoVscp.SentProofs
import ProtoVscp.AnswerProofs
import ProtoVscp.BerTlvProofs
import ProtoVscp.DerTagProofs
import ProtoVscp.BerDecoderProofs
import ProtoVscp.ConstructedProofs
import ProtoVscp.OctetStringProofs
import ProtoVscp.TcapTypesProofs
import ProtoVscp.TcapGrammar
import ProtoVscp.DerRoundTrip
import ProtoVscp.WireProofs
import ProtoVscp.PeerProofs
