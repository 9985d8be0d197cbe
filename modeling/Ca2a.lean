import Ca2a.Py.Text
import Ca2a.Py.TextFacts
import Ca2a.Adapter
import Ca2a.Contained
import Ca2a.HolderFacts
import Ca2a.NodeErrors
import Ca2a.Py.LoadsFacts
import Ca2a.Py.PrintSize
import Ca2a.RecordBinding
import Ca2a.ResponseBinding
import Ca2a.ResponseDelivery
import Ca2a.ChainRevocation
import Ca2a.Refusals
import Ca2a.AdapterRoundTrip
import Ca2a.Client
import Ca2a.ClientFacts
import Ca2a.Honest
import Ca2a.HashChain
import Ca2a.Py.Base64
import Ca2a.Trace
import Ca2a.TraceFacts
import Ca2a.TraceEmission
import Ca2a.TraceLineage
import Ca2a.Binding
import Ca2a.ReportData
import Ca2a.SealedChannel
import Ca2a.NvRead
import Ca2a.TpmQuote
import Ca2a.TdxQuote
import Ca2a.TdxAppraisal
import Ca2a.RecordFile
import Ca2a.AgentCard
import Ca2a.SdkBridge
import Ca2a.Relay
import Ca2a.ProvenanceDag
import Ca2a.Ladder
import Ca2a.ChallengeHistory
import Ca2a.WireForms
import Ca2a.EnvelopeCodec
import Ca2a.RevocationWire
import Ca2a.Server
import Ca2a.Verify
import Ca2a.ServerFacts
import Ca2a.Py.Decode
import Ca2a.Py.DecodeFacts
import Ca2a.Py.Url
import Ca2a.Http
import Ca2a.ErrorContract
import Ca2a.ServerRun
import Ca2a.Deployment
import Ca2a.StrictDeployment
import Ca2a.Workflow
import Ca2a.Py.Prog
import Ca2a.Tsm
import Ca2a.TsmAttest
import Ca2a.HardwareVerifier
import Ca2a.VerifierErrors
import Ca2a.TpmCollect
import Ca2a.TpmRun
import Ca2a.AskedOffers
import Ca2a.Config
import Ca2a.AgentManifest
import Ca2a.Bootstrap
