import MiniHF.Lib.Buffer
import MiniHF.Lib.Bits
import MiniHF.Lib.Blocks
import MiniHF.Lib.Numeral
import MiniHF.Lib.Padding
import MiniHF.Lib.Fifo
import MiniHF.Lib.Grid
import MiniHF.Lib.Doubles
import MiniHF.Lib.Runs
import MiniHF.Lib.Delimited
import MiniHF.Lib.Scatter
import MiniHF.Lib.Stuffing
import MiniHF.Lib.Trellis
import MiniHF.Protocol.PacketProof
import MiniHF.Protocol.PayloadProof
import MiniHF.Protocol.FieldProof
import MiniHF.Protocol.CursorProof
import MiniHF.Protocol.CobsCanonicalProof
import MiniHF.Uart.ResyncProof
import MiniHF.Uart.TransmitProof
import MiniHF.Uart.QueueProof
import MiniHF.Uart.SenderProof
import MiniHF.Radio.HandlerProof
import MiniHF.Radio.ReplyProof
import MiniHF.Radio.SupplyProof
import MiniHF.Radio.RegulatorProof
import MiniHF.Radio.SettingsProof
import MiniHF.Radio.RelayProof
import MiniHF.Radio.TruthProof
import MiniHF.Radio.RegulatorCmdProof
import MiniHF.Radio.BandProof
import MiniHF.Radio.Si5351aProof
import MiniHF.Radio.PllFreqProof
import MiniHF.Radio.RoundingProof
import MiniHF.Radio.Tps55289Proof
import MiniHF.Radio.TestSignalProof
import MiniHF.Radio.RepeatProof
import MiniHF.Host.CodecProof
import MiniHF.Host.ReaderProof
import MiniHF.Host.ClientProof
import MiniHF.Host.ConsoleProof
import MiniHF.Host.CorruptionProof
import MiniHF.Host.ApiProof
import MiniHF.Modes.LayoutProof
import MiniHF.Modes.LossProof
import MiniHF.Modes.CallsignProof
import MiniHF.Modes.TokenProof
import MiniHF.Modes.LocatorProof
import MiniHF.Modes.CwTimingProof
import MiniHF.Modes.RttyProof
import MiniHF.Modes.WsprMessageProof
import MiniHF.Modes.FailureProof
import MiniHF.Modes.RttyRepeatProof
import MiniHF.Modes.BitStoreProof
import MiniHF.Modes.TelemetryProof
import MiniHF.Lib.Pipe
import MiniHF.Link.Link
import MiniHF.Link.OutputProof
import MiniHF.Link.StreamProof
import MiniHF.Link.LinkProof
import MiniHF.Link.ExchangeProof
import MiniHF.Link.SessionProof
import MiniHF.Link.EndToEndProof
import MiniHF.Link.RefinementProof
import MiniHF.Lib.Registers
import MiniHF.Radio.Si5351aDriver
import MiniHF.Radio.Si5351aDriverProof
import MiniHF.Radio.Si5351aPartsProof
import MiniHF.Radio.OutputFreqProof
import MiniHF.Radio.QuietProof
import MiniHF.Radio.I2c
import MiniHF.Radio.Tps55289Driver
import MiniHF.Radio.Tps55289DriverProof
import MiniHF.Lib.Histories
import MiniHF.Host.Commands
import MiniHF.Link.RadioProof
import MiniHF.Link.LinearProof
import MiniHF.Radio.Boot
import MiniHF.Radio.BootProof
import MiniHF.Modes.ContentProof
import MiniHF.Modes.MessageProof
import MiniHF.Protocol.Writer
import MiniHF.Protocol.WriterProof
import MiniHF.Modes.CwCopyProof
import MiniHF.Radio.CarrierProof
